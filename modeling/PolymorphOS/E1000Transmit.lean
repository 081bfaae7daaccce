import Mathlib.Data.List.GetD
import PolymorphOS.E1000
import PolymorphOS.Runs

/-! Transmission: any sequence of calls, byte by byte, against a card that sends what the
descriptors up to the tail point to, whenever it likes. -/
namespace PolymorphOS

/-- Where a call stands: which bytes of the payload it has copied, or that its descriptor is
filled in. -/
inductive TransmitPc
  | idle
  | copying (payload : List UInt8) (copied : List ℕ)
  | filled
  deriving DecidableEq

/-- The driver and its calls: the payloads that were not too long, how many of them have rung the
tail register, and which call last wrote a byte of the staging buffer. Of each frame that was
sent, `wire` has the bytes and `intact` whether the staging buffer was intact at that time. -/
structure TransmitState where
  driver : E1000Driver
  pc : TransmitPc
  payloads : List (List UInt8)
  posted : ℕ
  writer : ℕ → Option ℕ
  wire : List (List UInt8)
  intact : List Bool

inductive TransmitAction
  | call (payload : List UInt8)
  | copy (i : ℕ)
  | fill
  | ring
  | send
  deriving DecidableEq

namespace TransmitState

/-- The `k`-th payload. -/
def payload (s : TransmitState) (k : ℕ) : List UInt8 := s.payloads.getD k []

/-- At every position of the `k`-th payload, the call that last wrote it has the same byte
there. -/
def Intact (s : TransmitState) (k : ℕ) : Prop :=
  ∀ i < (s.payload k).length, ((s.writer i).bind fun c => (s.payload c)[i]?) = (s.payload k)[i]?

instance (s : TransmitState) (k : ℕ) : Decidable (s.Intact k) :=
  inferInstanceAs (Decidable (∀ i < _, _ = _))

/-- The next effect of a call, or the card sending the next frame. -/
def step (s : TransmitState) : TransmitAction → Option TransmitState
  | .call payload =>
    match s.pc with
    | .idle =>
      if payload.length > 1518 then some s
      else some {s with pc := .copying payload [],payloads := s.payloads ++ [payload]}
    | _ => none
  | .copy i =>
    match s.pc with
    | .copying payload copied =>
      if i < payload.length ∧ i ∉ copied then
        some {s with
          driver := s.driver.copyByte payload i
          pc := .copying payload (i :: copied)
          writer := Function.update s.writer i (some s.posted)}
      else none
    | _ => none
  | .fill =>
    match s.pc with
    | .copying payload copied =>
      if ∀ i < payload.length, i ∈ copied then
        some {s with driver := s.driver.fillDescriptor payload,pc := .filled}
      else none
    | _ => none
  | .ring =>
    match s.pc with
    | .filled => some {s with driver := s.driver.ringTail,pc := .idle,posted := s.posted + 1}
    | _ => none
  | .send =>
    if s.driver.tdh ≠ s.driver.tdt then
      some {s with
        driver := s.driver.advanceTdh
        wire := s.wire ++ [s.driver.frameAt s.driver.tdh]
        intact := s.intact ++ [decide (s.Intact s.wire.length)]}
    else none

/-- What was sent is the payloads in their order, and the card will come to all the others. -/
def Delivered (s : TransmitState) : Prop :=
  s.wire <+: s.payloads ∧ s.posted = s.wire.length + (s.driver.tdt - s.driver.tdh).val

end TransmitState

/-- Any calls on a new driver. -/
def transmitSystem : Runs.System TransmitState TransmitAction where
  init s := ∃ d : E1000Driver, d.txIndex = bucket 0 ∧
    s = ⟨d.initTxRing,.idle,[],0,fun _ => none,[],[]⟩
  step s a t := s.step a = some t

namespace TransmitState

variable {s t : TransmitState}

/-- How many calls have filled in their descriptor. -/
def filled (s : TransmitState) : ℕ := s.posted + if s.pc = .filled then 1 else 0

/-- The invariant: indices count the calls and the sends, the staging buffer has the bytes of
their last writers, and the ring has the latest 32 descriptors. -/
structure Inv (s : TransmitState) : Prop where
  txIndex : s.driver.txIndex = bucket s.posted
  tdt : s.driver.tdt = bucket s.posted
  tdh : s.driver.tdh = bucket s.wire.length
  wire_le : s.wire.length ≤ s.posted
  payloads : s.payloads.length = s.posted + if s.pc = .idle then 0 else 1
  short : ∀ p ∈ s.payloads, p.length ≤ 1518
  copying : ∀ p copied, s.pc = .copying p copied →
    s.payload s.posted = p ∧ ∀ i ∈ copied, (s.writer i).isSome
  staged : ∀ i c, s.writer i = some c →
    (s.payload c)[i]? = some (s.driver.memory (s.driver.txBufferPhys.1 + i))
  written : ∀ k < s.filled, ∀ i < (s.payload k).length, (s.writer i).isSome
  ring : ∀ k < s.filled, s.filled ≤ k + 32 →
    (s.driver.txRing (bucket k)).bufferAddr = UInt64.ofNat s.driver.txBufferPhys.1 ∧
    (s.driver.txRing (bucket k)).length = UInt16.ofNat (s.payload k).length
  intact : s.intact.length = s.wire.length
  verdict : s.posted < s.wire.length + 32 → ∀ m < s.wire.length,
    s.wire[m]? = s.payloads[m]? ↔ s.intact[m]? = some true

theorem Inv.length_le (h : Inv s) (k : ℕ) : (s.payload k).length ≤ 1518 := by
  unfold payload
  by_cases hk : k < s.payloads.length
  · rw [List.getD_eq_getElem _ _ hk]
    exact h.short _ (List.getElem_mem hk)
  · rw [List.getD_eq_default _ _ (not_lt.mp hk)]
    exact Nat.zero_le _

/-- The card reads the staging buffer. -/
theorem Inv.frameAt_eq (h : Inv s) {k : ℕ} (hk : k < s.filled) (hle : s.filled ≤ k + 32) :
    s.driver.frameAt (bucket k) = (List.range (s.payload k).length).map fun i =>
      s.driver.memory (s.driver.txBufferPhys.1 + i) := by
  obtain ⟨haddr,hlen⟩ := h.ring k hk hle
  have hshort := h.length_le k
  have hphys := s.driver.txBufferPhys.2
  have haddr' : (UInt64.ofNat s.driver.txBufferPhys.1).toNat = s.driver.txBufferPhys.1 :=
    UInt64.toNat_ofNat_of_lt (hphys.trans (by decide))
  have hlen' : (UInt16.ofNat (s.payload k).length).toNat = (s.payload k).length :=
    UInt16.toNat_ofNat_of_lt (hshort.trans_lt (by decide))
  rw [E1000Driver.frameAt,haddr,hlen,haddr',hlen']

theorem Inv.frameAt_eq_iff (h : Inv s) {k : ℕ} (hk : k < s.filled) (hle : s.filled ≤ k + 32) :
    s.driver.frameAt (bucket k) = s.payload k ↔ s.Intact k := by
  rw [h.frameAt_eq hk hle]
  have hbyte : ∀ i < (s.payload k).length,
      ((s.writer i).bind fun c => (s.payload c)[i]?) =
        some (s.driver.memory (s.driver.txBufferPhys.1 + i)) := by
    intro i hi
    obtain ⟨c,hc⟩ := Option.isSome_iff_exists.mp (h.written k hk i hi)
    rw [hc]
    exact h.staged i c hc
  constructor
  · intro heq i hi
    rw [hbyte i hi]
    have hget := congrArg (fun l : List UInt8 => l[i]?) heq
    simp only [List.getElem?_map,List.getElem?_range hi] at hget
    exact hget
  · intro hintact
    apply List.ext_getElem?
    intro i
    by_cases hi : i < (s.payload k).length
    · rw [List.getElem?_map,List.getElem?_range hi,← hintact i hi,hbyte i hi]
      rfl
    · rw [List.getElem?_eq_none (by simpa using hi),List.getElem?_eq_none (not_lt.mp hi)]

/-- A byte was written by a call that there is. -/
theorem Inv.writer_lt (h : Inv s) {i c : ℕ} (hc : s.writer i = some c) : c < s.payloads.length := by
  by_contra hge
  have hbyte := h.staged i c hc
  rw [payload,List.getD_eq_default _ _ (not_lt.mp hge)] at hbyte
  cases hbyte

theorem Inv.call (h : Inv s) (hpc : s.pc = .idle) {p : List UInt8} (hlen : p.length ≤ 1518) :
    Inv {s with pc := .copying p [],payloads := s.payloads ++ [p]} := by
  have hpayloads := h.payloads
  rw [if_pos hpc,Nat.add_zero] at hpayloads
  have hfilled : s.filled = s.posted := by rw [filled,hpc]; rfl
  have hold : ∀ k < s.payloads.length, (s.payloads ++ [p]).getD k [] = s.payload k :=
    fun k hk => List.getD_append _ _ _ _ hk
  have hwritten := h.written
  have hring := h.ring
  rw [hfilled] at hwritten hring
  refine ⟨h.txIndex,h.tdt,h.tdh,h.wire_le,?_,?_,?_,?_,?_,?_,h.intact,?_⟩
  · rw [List.length_append,List.length_singleton,hpayloads,if_neg (fun he => nomatch he)]
  · intro q hq
    rcases List.mem_append.mp hq with hq | hq
    · exact h.short q hq
    · cases List.mem_singleton.mp hq
      exact hlen
  · rintro _ _ ⟨⟩
    refine ⟨?_,fun i hi => absurd hi List.not_mem_nil⟩
    show (s.payloads ++ [p]).getD s.posted [] = p
    rw [← hpayloads,List.getD_append_right _ _ _ _ le_rfl,Nat.sub_self]
    rfl
  · intro i c hc
    show ((s.payloads ++ [p]).getD c [])[i]? = _
    rw [hold c (h.writer_lt hc)]
    exact h.staged i c hc
  · intro k hk i hi
    have hk' : k < s.payloads.length := hk.trans_eq hpayloads.symm
    change i < ((s.payloads ++ [p]).getD k []).length at hi
    rw [hold k hk'] at hi
    exact hwritten k hk i hi
  · intro k hk hle
    have hk' : k < s.payloads.length := hk.trans_eq hpayloads.symm
    show _ ∧ (s.driver.txRing (bucket k)).length =
      UInt16.ofNat ((s.payloads ++ [p]).getD k []).length
    rw [hold k hk']
    exact hring k hk hle
  · intro hlt m hm
    have hm' : m < s.payloads.length := (hm.trans_le h.wire_le).trans_eq hpayloads.symm
    show _ = (s.payloads ++ [p])[m]? ↔ _
    rw [List.getElem?_append_left hm']
    exact h.verdict hlt m hm

/-- A frame that is being copied is not in the ring yet. -/
theorem Inv.during_copy (h : Inv s) {p : List UInt8} {copied : List ℕ}
    (hpc : s.pc = .copying p copied) :
    s.filled = s.posted ∧ s.payloads.length = s.posted + 1 := by
  have hpayloads := h.payloads
  rw [hpc,if_neg nofun] at hpayloads
  refine ⟨?_,hpayloads⟩
  rw [filled,hpc]
  rfl

theorem Inv.copy (h : Inv s) {p : List UInt8} {copied : List ℕ} {i : ℕ}
    (hpc : s.pc = .copying p copied) (hi : i < p.length) :
    Inv {s with
      driver := s.driver.copyByte p i
      pc := .copying p (i :: copied)
      writer := Function.update s.writer i (some s.posted)} := by
  obtain ⟨hfilled,hpayloads⟩ := h.during_copy hpc
  obtain ⟨hpayload,hcopied⟩ := h.copying p copied hpc
  have hwritten := h.written
  have hring := h.ring
  rw [hfilled] at hwritten hring
  have hsome : ∀ j, (s.writer j).isSome →
      (Function.update s.writer i (some s.posted) j).isSome := by
    intro j hj
    by_cases hji : j = i
    · rw [hji,Function.update_self]
      rfl
    · rw [Function.update_of_ne hji]
      exact hj
  refine ⟨h.txIndex,h.tdt,h.tdh,h.wire_le,hpayloads,h.short,?_,?_,?_,hring,h.intact,h.verdict⟩
  · rintro _ _ ⟨⟩
    refine ⟨hpayload,fun j hj => ?_⟩
    rcases List.mem_cons.mp hj with rfl | hj
    · show (Function.update s.writer j _ j).isSome
      rw [Function.update_self]
      rfl
    · exact hsome j (hcopied j hj)
  · intro j c hc
    change Function.update s.writer i (some s.posted) j = some c at hc
    show (s.payload c)[j]? = some (Function.update s.driver.memory
      (s.driver.txBufferPhys.1 + i) (p.getD i 0) (s.driver.txBufferPhys.1 + j))
    by_cases hji : j = i
    · rw [hji,Function.update_self] at hc
      cases hc
      rw [hji,Function.update_self,hpayload,List.getElem?_eq_getElem hi,List.getD_eq_getElem _ _ hi]
    · rw [Function.update_of_ne hji] at hc
      rw [Function.update_of_ne (fun he => hji (Nat.add_left_cancel he))]
      exact h.staged j c hc
  · exact fun k hk j hj => hsome j (hwritten k hk j hj)

theorem Inv.fill (h : Inv s) {p : List UInt8} {copied : List ℕ} (hpc : s.pc = .copying p copied)
    (hall : ∀ i < p.length, i ∈ copied) :
    Inv {s with driver := s.driver.fillDescriptor p,pc := .filled} := by
  obtain ⟨hfilled,hpayloads⟩ := h.during_copy hpc
  obtain ⟨hpayload,hcopied⟩ := h.copying p copied hpc
  have hwritten := h.written
  have hring := h.ring
  rw [hfilled] at hwritten hring
  refine ⟨h.txIndex,h.tdt,h.tdh,h.wire_le,hpayloads,h.short,?_,h.staged,?_,?_,h.intact,h.verdict⟩
  · rintro _ _ ⟨⟩
  · intro k hk i hi
    rcases Nat.lt_succ_iff_lt_or_eq.mp hk with hk | rfl
    · exact hwritten k hk i hi
    · change i < (s.payload s.posted).length at hi
      rw [hpayload] at hi
      exact hcopied i (hall i hi)
  · intro k hk hle
    change k < s.posted + 1 at hk
    change s.posted + 1 ≤ k + 32 at hle
    show (Function.update s.driver.txRing s.driver.txIndex _ (bucket k)).bufferAddr = _ ∧
      (Function.update s.driver.txRing s.driver.txIndex _ (bucket k)).length = _
    rw [h.txIndex]
    rcases Nat.lt_succ_iff_lt_or_eq.mp hk with hk | rfl
    · rw [Function.update_of_ne (bucket_ne hk (by omega))]
      exact hring k hk (by omega)
    · rw [Function.update_self]
      exact ⟨rfl,congrArg (fun q : List UInt8 => UInt16.ofNat q.length) hpayload.symm⟩

theorem Inv.ringTail (h : Inv s) (hpc : s.pc = .filled) :
    Inv {s with driver := s.driver.ringTail,pc := .idle,posted := s.posted + 1} := by
  have hpayloads := h.payloads
  have hfilled : s.filled = s.posted + 1 := by rw [filled,hpc]; rfl
  have hwritten := h.written
  have hring := h.ring
  rw [hfilled] at hwritten hring
  rw [if_neg (by rw [hpc]; exact fun he => nomatch he)] at hpayloads
  have hnext : s.driver.txIndex + 1 = bucket (s.posted + 1) := by rw [h.txIndex,bucket_succ]
  refine ⟨hnext,hnext,h.tdh,Nat.le_succ_of_le h.wire_le,hpayloads,h.short,?_,h.staged,hwritten,hring,
    h.intact,fun hlt => h.verdict (Nat.lt_of_succ_lt hlt)⟩
  rintro _ _ ⟨⟩

theorem Inv.send (h : Inv s) (hne : s.driver.tdh ≠ s.driver.tdt) :
    Inv {s with
      driver := s.driver.advanceTdh
      wire := s.wire ++ [s.driver.frameAt s.driver.tdh]
      intact := s.intact ++ [decide (s.Intact s.wire.length)]} := by
  have hle := h.wire_le
  rw [h.tdh,h.tdt,Ne,bucket_eq_iff] at hne
  have hlt : s.wire.length < s.posted := by
    apply lt_of_le_of_ne hle
    intro he
    exact hne (by rw [he])
  refine ⟨h.txIndex,h.tdt,?_,?_,h.payloads,h.short,h.copying,h.staged,h.written,h.ring,?_,?_⟩
  · show s.driver.tdh + 1 = bucket (s.wire ++ [_]).length
    rw [h.tdh,bucket_succ,List.length_append,List.length_singleton]
  · rw [List.length_append,List.length_singleton]
    exact hlt
  · rw [List.length_append,List.length_append,List.length_singleton,List.length_singleton,h.intact]
  · intro hroom m hm
    rw [List.length_append,List.length_singleton] at hroom hm
    show (s.wire ++ [_])[m]? = s.payloads[m]? ↔ (s.intact ++ [_])[m]? = some true
    have hroom' : s.posted < s.wire.length + 32 := by
      change s.posted < _ at hroom
      omega
    by_cases hm' : m < s.wire.length
    · rw [List.getElem?_append_left hm',List.getElem?_append_left (h.intact.symm ▸ hm')]
      exact h.verdict hroom' m hm'
    · -- the frame that is being sent
      obtain rfl : m = s.wire.length := by omega
      have hfilled : s.posted ≤ s.filled ∧ s.filled ≤ s.posted + 1 := by
        unfold filled
        split_ifs <;> omega
      have hiff := h.frameAt_eq_iff (k := s.wire.length) (by omega) (by omega)
      have hpayloads : s.posted ≤ s.payloads.length := by
        rw [h.payloads]
        exact Nat.le_add_right _ _
      have hget : s.payloads[s.wire.length]? = some (s.payload s.wire.length) := by
        rw [payload,List.getD_eq_getElem _ _ (hlt.trans_le hpayloads),List.getElem?_eq_getElem]
      rw [List.getElem?_concat_length,← h.intact,List.getElem?_concat_length,h.intact,hget,h.tdh,
        Option.some_inj,Option.some_inj,hiff,decide_eq_true_iff]

theorem Inv.step {a : TransmitAction} (h : Inv s) (hstep : s.step a = some t) : Inv t := by
  cases a with
  | call p =>
    cases hpc : s.pc with
    | idle =>
      simp only [TransmitState.step,hpc] at hstep
      split at hstep
      · cases hstep
        exact h
      · rename_i hlen
        cases hstep
        exact h.call hpc (not_lt.mp hlen)
    | copying | filled =>
      simp only [TransmitState.step,hpc] at hstep
      cases hstep
  | copy i =>
    cases hpc : s.pc with
    | copying p copied =>
      simp only [TransmitState.step,hpc] at hstep
      split at hstep
      · rename_i hi
        cases hstep
        exact h.copy hpc hi.1
      · cases hstep
    | idle | filled =>
      simp only [TransmitState.step,hpc] at hstep
      cases hstep
  | fill =>
    cases hpc : s.pc with
    | copying p copied =>
      simp only [TransmitState.step,hpc] at hstep
      split at hstep
      · rename_i hall
        cases hstep
        exact h.fill hpc hall
      · cases hstep
    | idle | filled =>
      simp only [TransmitState.step,hpc] at hstep
      cases hstep
  | ring =>
    cases hpc : s.pc with
    | filled =>
      simp only [TransmitState.step,hpc] at hstep
      cases hstep
      exact h.ringTail hpc
    | idle | copying =>
      simp only [TransmitState.step,hpc] at hstep
      cases hstep
  | send =>
    simp only [TransmitState.step] at hstep
    split at hstep
    · rename_i hne
      cases hstep
      exact h.send hne
    · cases hstep

theorem Inv.reachable (h : transmitSystem.Reachable s) : Inv s := by
  apply h.invariant
  · rintro _ ⟨d,hindex,rfl⟩
    refine ⟨hindex,rfl,rfl,le_rfl,rfl,?_,?_,?_,?_,?_,rfl,?_⟩
    · rintro p hp
      cases hp
    · rintro _ _ ⟨⟩
    · rintro i c ⟨⟩
    · exact fun k hk => absurd hk (Nat.not_lt_zero k)
    · exact fun k hk => absurd hk (Nat.not_lt_zero k)
    · exact fun _ m hm => absurd hm (Nat.not_lt_zero m)
  · exact fun s a t hs hstep => hs.step hstep

end TransmitState

/-- In every run the card has sent just the payloads, in their order, with the others still to
come, exactly if the staging buffer was intact whenever it sent one and it never was 32 frames
behind. -/
theorem transmitSystem_delivered_iff {s : TransmitState} (h : transmitSystem.Reachable s) :
    s.Delivered ↔ (∀ intact ∈ s.intact, intact = true) ∧ s.posted < s.wire.length + 32 := by
  have hinv := TransmitState.Inv.reachable h
  have hle := hinv.wire_le
  have hpayloads : s.wire.length ≤ s.payloads.length :=
    hle.trans ((Nat.le_add_right _ _).trans_eq hinv.payloads.symm)
  have hbehind : (s.driver.tdt - s.driver.tdh).val = (s.posted - s.wire.length) % 32 := by
    rw [hinv.tdt,hinv.tdh]
    simp only [bucket,Fin.sub_def,Fin.val_ofNat]
    omega
  unfold TransmitState.Delivered
  rw [hbehind]
  constructor
  · rintro ⟨hpre,hposted⟩
    have hroom : s.posted < s.wire.length + 32 := by omega
    exact ⟨(Runs.prefix_iff_verdicts hinv.intact (hinv.verdict hroom)).mp hpre,hroom⟩
  · rintro ⟨hall,hroom⟩
    exact ⟨(Runs.prefix_iff_verdicts hinv.intact (hinv.verdict hroom)).mpr hall,by omega⟩

namespace TransmitState

/-- The effects of one call, its bytes copied from the first to the last. -/
def transmit (p : List UInt8) : List TransmitAction :=
  .call p :: (List.range p.length).map .copy ++ [.fill,.ring]

theorem foldlM_copy {s : TransmitState} {p : List UInt8} (hpc : s.pc = .copying p []) {n : ℕ}
    (hn : n ≤ p.length) : ((List.range n).map .copy).foldlM TransmitState.step s = some {s with
      driver := {s.driver with
        memory := splice s.driver.memory s.driver.txBufferPhys.1 n fun i => p.getD i 0}
      pc := .copying p (List.range n).reverse
      writer := fun i => if i < n then some s.posted else s.writer i} := by
  induction n with
  | zero =>
    rw [splice_zero]
    show some s = some {s with pc := .copying p [],writer := s.writer}
    rw [← hpc]
  | succ n ih =>
    have hstep : n < p.length ∧ n ∉ (List.range n).reverse :=
      ⟨hn,fun hmem => Nat.lt_irrefl n (List.mem_range.mp (List.mem_reverse.mp hmem))⟩
    have hwriter : Function.update (fun i => if i < n then some s.posted else s.writer i) n
        (some s.posted) = fun i => if i < n + 1 then some s.posted else s.writer i := by
      funext i
      by_cases hi : i = n
      · rw [hi,Function.update_self,if_pos (Nat.lt_succ_self n)]
      · have hiff : i < n + 1 ↔ i < n := by omega
        simp only [Function.update_of_ne hi,hiff]
    rw [List.range_succ,List.map_append,List.foldlM_append,ih (Nat.le_of_succ_le hn)]
    simp only [bind,Option.bind,List.map_cons,List.map_nil,List.foldlM_cons,List.foldlM_nil,
      TransmitState.step,if_pos hstep,List.reverse_append,List.reverse_cons,List.reverse_nil]
    rw [E1000Driver.copyByte,hwriter,splice_succ]
    rfl

/-- An uninterrupted call is `transmit_packet_secure`. -/
theorem foldlM_transmit {s : TransmitState} (hpc : s.pc = .idle) {p : List UInt8}
    (hlen : p.length ≤ 1518) : ((transmit p).foldlM TransmitState.step s).map TransmitState.driver =
      some (s.driver.transmitPacketSecure p) := by
  have hshort : ¬p.length > 1518 := not_lt.mpr hlen
  let s₁ : TransmitState := {s with pc := .copying p [],payloads := s.payloads ++ [p]}
  have hcall : s.step (.call p) = some s₁ := by
    simp only [TransmitState.step,hpc,if_neg hshort]
    rfl
  have hall : ∀ i < p.length, i ∈ (List.range p.length).reverse := fun i hi =>
    List.mem_reverse.mpr (List.mem_range.mpr hi)
  have hcopy := foldlM_copy (s := s₁) rfl (le_refl p.length)
  rw [transmit,List.cons_append,List.foldlM_cons,hcall]
  show (List.foldlM TransmitState.step s₁ _).map _ = _
  rw [List.foldlM_append,hcopy]
  simp only [bind,Option.bind,List.foldlM_cons,List.foldlM_nil,TransmitState.step,if_pos hall]
  rw [E1000Driver.transmitPacketSecure,if_neg hshort]
  rfl

/-- Before the first call, on zeroed memory. -/
def start : TransmitState where
  driver := E1000Driver.initTxRing {
    txRing := fun _ => ⟨0,0,0,0⟩
    txBufferPhys := ⟨0x300000,by decide⟩
    txIndex := bucket 0
    rxRing := fun _ => ⟨0,0,0⟩
    rxBuffers := fun _ => ⟨0,by decide⟩
    rxIndex := bucket 0
    memory := fun _ => 0
    tdh := bucket 0
    tdt := bucket 0
    rdh := bucket 0
    rdt := bucket 0}
  pc := .idle
  payloads := []
  posted := 0
  writer := fun _ => none
  wire := []
  intact := []

/-- The start after a schedule, and untouched if the schedule gets stuck. -/
def after (schedule : List TransmitAction) : TransmitState :=
  (schedule.foldlM TransmitState.step start).getD start

theorem after_reachable (schedule : List TransmitAction) :
    transmitSystem.Reachable (after schedule) := by
  have hstart : transmitSystem.Reachable start := .init ⟨_,rfl,rfl⟩
  unfold after
  cases h : schedule.foldlM TransmitState.step start with
  | none => exact hstart
  | some t => exact hstart.foldlM (fun _ _ _ _ hstep => hstep) h

end TransmitState

/-- The card is done before the next call. -/
theorem promptCard_delivered :
    let s := TransmitState.after (TransmitState.transmit [1,2] ++ [.send] ++
      TransmitState.transmit [3] ++ [.send])
    s.wire.length = 2 ∧ s.Delivered :=
  ⟨by decide,(transmitSystem_delivered_iff (TransmitState.after_reachable _)).mpr (by decide)⟩

/-- Two calls before the card looks: the second payload is sent in the place of the first. -/
theorem slowCard_altered : ¬∀ s, transmitSystem.Reachable s → s.Delivered := by
  intro h
  have hdelivered := h _ (TransmitState.after_reachable
    (TransmitState.transmit [1] ++ TransmitState.transmit [2] ++ [.send]))
  exact absurd hdelivered.1 (by decide)

end PolymorphOS
