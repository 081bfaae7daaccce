import Mathlib.Data.List.GetD
import PolymorphOS.E1000Transmit
import PolymorphOS.Runs

/-! Reception: the effects of `poll_receive` on the shared memory, one at a time, against a card
that stores frames in the buckets it owns. -/
namespace PolymorphOS

/-- Where a call of `poll_receive` stands: it has seen the done bit, read the length, cleared
the status, given the bucket before this one back. -/
inductive ReceivePc
  | idle
  | done
  | measured (packetLen : ℕ)
  | cleared (packetLen : ℕ)
  | released (i : Bucket) (packetLen : ℕ)
  deriving DecidableEq

/-- Where the card stands: it has stored a frame, set its done bit. -/
inductive CardPc
  | idle
  | stored
  | done
  deriving DecidableEq

/-- The frames the card has stored so far, and those that `poll_receive` returned. -/
structure ReceiveState where
  driver : E1000Driver
  poll : ReceivePc
  card : CardPc
  stored : List (List UInt8)
  returned : List (List UInt8)

/-- The card's steps carry what they depend on: the frame, the status byte with its done bit. -/
inductive ReceiveAction
  | poll
  | store (frame : List UInt8)
  | drop (frame : List UInt8)
  | finish (status : UInt8)
  | advance

namespace ReceiveState

/-- The next effect of the call in progress, or of a new one. -/
def pollStep (s : ReceiveState) : ReceiveState :=
  let i := s.driver.rxIndex
  match s.poll with
  | .idle => if (s.driver.rxRing i).status &&& rdDd ≠ 0 then {s with poll := .done} else s
  | .done => {s with poll := .measured (s.driver.rxRing i).length.toNat}
  | .measured packetLen => {s with driver := s.driver.clearStatus,poll := .cleared packetLen}
  | .cleared packetLen => {s with driver := s.driver.releaseBucket,poll := .released i packetLen}
  | .released i packetLen =>
    {s with poll := .idle,returned := s.returned ++ [s.driver.packetData i packetLen]}

/-- A frame of at most 4096 bytes goes to the bucket at `RDH`. -/
def store (s : ReceiveState) (frame : List UInt8) : ReceiveState :=
  {s with
    driver := s.driver.storeFrame s.driver.rdh frame
    card := .stored
    stored := s.stored ++ [frame]}

def finish (s : ReceiveState) (status : UInt8) : ReceiveState :=
  {s with driver := s.driver.setStatus s.driver.rdh status,card := .done}

def advance (s : ReceiveState) : ReceiveState :=
  {s with driver := s.driver.advanceRdh,card := .idle}

end ReceiveState

/-- The card stores a frame only in a bucket it owns, and drops it if there is none. -/
inductive ReceiveStep : ReceiveState → ReceiveAction → ReceiveState → Prop
  | poll {s : ReceiveState} : ReceiveStep s .poll s.pollStep
  | store {s : ReceiveState} {frame : List UInt8} : s.card = .idle →
      s.driver.rdh ≠ s.driver.rdt → frame.length ≤ 4096 →
      ReceiveStep s (.store frame) (s.store frame)
  | drop {s : ReceiveState} {frame : List UInt8} : s.card = .idle →
      s.driver.rdh = s.driver.rdt → ReceiveStep s (.drop frame) s
  | finish {s : ReceiveState} {status : UInt8} : s.card = .stored → status &&& rdDd ≠ 0 →
      ReceiveStep s (.finish status) (s.finish status)
  | advance {s : ReceiveState} : s.card = .done → ReceiveStep s .advance s.advance

/-- Polls and deliveries in any order, from `init_rx_ring` on; the allocator handed out a frame
of its own for every bucket. -/
def receiveSystem : Runs.System ReceiveState ReceiveAction where
  init s := ∃ (d : E1000Driver) (frames : Bucket → PhysFrame), d.rxIndex = bucket 0 ∧
    Function.Injective frames ∧ s = ⟨d.initRxRing frames,.idle,.idle,[],[]⟩
  step := ReceiveStep

namespace ReceiveState

/-- An uninterrupted call is `poll_receive`. -/
theorem pollStep_iterate {s : ReceiveState} (hpoll : s.poll = .idle) :
    (pollStep^[5] s).driver = s.driver.pollReceive.2 ∧
    (pollStep^[5] s).returned = s.returned ++ s.driver.pollReceive.1.toList := by
  unfold E1000Driver.pollReceive
  by_cases hdone : (s.driver.rxRing s.driver.rxIndex).status &&& rdDd ≠ 0
  · have hstep : s.pollStep = {s with poll := .done} := by
      simp only [pollStep,hpoll,if_pos hdone]
    rw [Function.iterate_succ_apply,hstep,if_pos hdone]
    exact ⟨rfl,rfl⟩
  · have hstep : s.pollStep = s := by
      simp only [pollStep,hpoll,if_neg hdone]
    rw [Function.iterate_fixed hstep,if_neg hdone]
    exact ⟨rfl,(List.append_nil _).symm⟩

variable {s t : ReceiveState}

/-- How many buckets' status bytes the driver has cleared. -/
def cleared (s : ReceiveState) : ℕ :=
  match s.poll with
  | .cleared _ => s.returned.length + 1
  | .released _ _ => s.returned.length + 1
  | _ => s.returned.length

/-- How many buckets it has taken, each time giving back the one before. -/
def taken (s : ReceiveState) : ℕ :=
  match s.poll with
  | .released _ _ => s.returned.length + 1
  | _ => s.returned.length

/-- How many frames have their done bit set. -/
def finished (s : ReceiveState) : ℕ :=
  s.stored.length - if s.card = .stored then 1 else 0

/-- The `k`-th frame stored. -/
def frame (s : ReceiveState) (k : ℕ) : List UInt8 := s.stored.getD k []

/-- What the call in progress knows. -/
def Polled (s : ReceiveState) : Prop :=
  match s.poll with
  | .idle => True
  | .done => s.returned.length < s.finished
  | .measured n => s.returned.length < s.finished ∧ n = (s.frame s.returned.length).length
  | .cleared n => s.returned.length < s.finished ∧ n = (s.frame s.returned.length).length
  | .released i n => s.returned.length < s.finished ∧ i = bucket s.returned.length ∧
    n = (s.frame s.returned.length).length

/-- The invariant: indices count what was taken and stored, a bucket is done exactly if its frame
waits to be polled, and it holds that frame until the frame is returned. -/
structure Inv (s : ReceiveState) : Prop where
  buffers : ∃ frames : Bucket → PhysFrame, Function.Injective frames ∧
    ∀ i, s.driver.rxBuffers i = (frames i).startAddress ∧
      (s.driver.rxRing i).bufferAddr = UInt64.ofNat (frames i).startAddress.1
  rxIndex : s.driver.rxIndex = bucket s.taken
  rdt : s.driver.rdt = bucket (s.taken + 31)
  rdh : s.driver.rdh = bucket (s.stored.length - if s.card = .idle then 0 else 1)
  card : s.card ≠ .idle → s.stored ≠ []
  returned_le : s.taken ≤ s.finished
  room : s.stored.length ≤ s.taken + 31
  done : ∀ i, (s.driver.rxRing i).status &&& rdDd ≠ 0 ↔
    ∃ k, s.cleared ≤ k ∧ k < s.finished ∧ i = bucket k
  short : ∀ k, (s.frame k).length ≤ 4096
  held : ∀ k, s.returned.length ≤ k → k < s.stored.length →
    (s.driver.rxRing (bucket k)).length = UInt16.ofNat (s.frame k).length ∧
    s.driver.packetData (bucket k) (s.frame k).length = s.frame k
  polled : s.Polled
  returned : s.returned <+: s.stored

theorem Inv.bufferAddr_toNat (h : Inv s) (i : Bucket) :
    (s.driver.rxRing i).bufferAddr.toNat = (s.driver.rxBuffers i).1 := by
  obtain ⟨frames,_,hframes⟩ := h.buffers
  obtain ⟨hbuffer,haddr⟩ := hframes i
  have hphys := (frames i).startAddress.2
  rw [haddr,hbuffer]
  exact UInt64.toNat_ofNat_of_lt (hphys.trans (by decide))

/-- Different buckets have disjoint frames. -/
theorem Inv.disjoint (h : Inv s) {i j : Bucket} (hne : i ≠ j) :
    (s.driver.rxBuffers i).1 + 4096 ≤ (s.driver.rxBuffers j).1 ∨
      (s.driver.rxBuffers j).1 + 4096 ≤ (s.driver.rxBuffers i).1 := by
  obtain ⟨frames,hinj,hframes⟩ := h.buffers
  rw [(hframes i).1,(hframes j).1]
  have hstart : (frames i).startAddress.1 ≠ (frames j).startAddress.1 := by
    intro he
    apply hne
    apply hinj
    cases hi : frames i
    cases hj : frames j
    rw [hi,hj] at he
    cases Subtype.ext he
    rfl
  obtain ⟨x,hx⟩ := (frames i).aligned
  obtain ⟨y,hy⟩ := (frames j).aligned
  rw [hx,hy] at hstart ⊢
  omega

theorem Inv.packetData_store (h : Inv s) {frame : List UInt8} {i j : Bucket} {n : ℕ}
    (hframe : frame.length ≤ 4096) (hn : n ≤ 4096) (hne : j ≠ i) :
    (s.driver.storeFrame i frame).packetData j n = s.driver.packetData j n := by
  apply List.map_congr_left
  intro k hk
  have hlt := List.mem_range.mp hk
  have hdisjoint := h.disjoint hne
  rw [E1000Driver.storeFrame_memory,h.bufferAddr_toNat]
  show splice _ _ _ _ ((s.driver.rxBuffers j).1 + k) = _
  exact splice_of_not_mem (by omega) _

theorem Inv.packetData_stored (h : Inv s) (frame : List UInt8) (i : Bucket) :
    (s.driver.storeFrame i frame).packetData i frame.length = frame := by
  apply List.ext_getElem
  · rw [E1000Driver.packetData,List.length_map,List.length_range]
  · intro j hj hj'
    simp only [E1000Driver.packetData,List.getElem_map,List.getElem_range]
    rw [E1000Driver.storeFrame_memory,h.bufferAddr_toNat]
    exact (splice_apply hj' _).trans (List.getD_eq_getElem _ _ hj')

theorem Inv.cleared_le (h : Inv s) : s.cleared ≤ s.finished := by
  have htaken := h.returned_le
  have hpolled := h.polled
  unfold cleared
  unfold taken at htaken
  unfold Polled at hpolled
  cases hpoll : s.poll with
  | idle =>
    rw [hpoll] at htaken
    exact htaken
  | done =>
    rw [hpoll] at htaken
    exact htaken
  | measured n =>
    rw [hpoll] at htaken
    exact htaken
  | cleared n =>
    rw [hpoll] at hpolled
    exact hpolled.1
  | released i n =>
    rw [hpoll] at htaken
    exact htaken

theorem Inv.finished_le (s : ReceiveState) : s.finished ≤ s.stored.length := Nat.sub_le _ _

/-- Storing hits none of the buckets whose frames wait to be returned. -/
theorem Inv.bucket_ne_rdh (h : Inv s) (hcard : s.card = .idle) (hne : s.driver.rdh ≠ s.driver.rdt)
    {k : ℕ} (hk : s.returned.length ≤ k) (hlt : k < s.stored.length) :
    bucket k ≠ s.driver.rdh := by
  have hroom := h.room
  have htaken : s.taken ≤ s.returned.length + 1 := by
    unfold taken
    split <;> omega
  rw [h.rdh,if_pos hcard,Nat.sub_zero] at hne ⊢
  rw [h.rdt,Ne,bucket_eq_iff] at hne
  exact bucket_ne hlt (by omega)

theorem rdDd_clear : ¬(0 : UInt8) &&& rdDd ≠ 0 := by decide

/-- The driver finds the done bit exactly if its frame waits. -/
theorem Inv.done_iff (h : Inv s) (hpoll : s.poll = .idle) :
    (s.driver.rxRing s.driver.rxIndex).status &&& rdDd ≠ 0 ↔ s.returned.length < s.finished := by
  have hcleared : s.cleared = s.returned.length := by rw [cleared,hpoll]
  have htaken : s.taken = s.returned.length := by rw [taken,hpoll]
  have hroom := h.room
  have hfinished := Inv.finished_le s
  rw [h.done,hcleared,h.rxIndex,htaken]
  constructor
  · rintro ⟨k,hle,hlt,_⟩
    omega
  · intro hlt
    exact ⟨s.returned.length,le_rfl,hlt,rfl⟩

theorem Inv.length_toNat (h : Inv s) {k : ℕ} (hk : s.returned.length ≤ k)
    (hlt : k < s.stored.length) :
    (s.driver.rxRing (bucket k)).length.toNat = (s.frame k).length := by
  rw [(h.held k hk hlt).1]
  exact UInt16.toNat_ofNat_of_lt ((h.short k).trans_lt (by decide))

/-- A read leaves everything but the position in the call. -/
theorem Inv.read (h : Inv s) {p : ReceivePc} (htaken : {s with poll := p}.taken = s.taken)
    (hcleared : {s with poll := p}.cleared = s.cleared) (hpolled : {s with poll := p}.Polled) :
    Inv {s with poll := p} where
  buffers := h.buffers
  rxIndex := htaken ▸ h.rxIndex
  rdt := htaken ▸ h.rdt
  rdh := h.rdh
  card := h.card
  returned_le := htaken ▸ h.returned_le
  room := htaken ▸ h.room
  done := hcleared ▸ h.done
  short := h.short
  held := h.held
  polled := hpolled
  returned := h.returned

theorem Inv.clear (h : Inv s) {n : ℕ} (hpoll : s.poll = .measured n) :
    Inv {s with driver := s.driver.clearStatus,poll := .cleared n} := by
  have htaken : s.taken = s.returned.length := by rw [taken,hpoll]
  have hcleared : s.cleared = s.returned.length := by rw [cleared,hpoll]
  have hpolled := h.polled
  rw [Polled,hpoll] at hpolled
  have hindex := h.rxIndex
  have hrdt := h.rdt
  have hle := h.returned_le
  have hroom := h.room
  rw [htaken] at hindex hrdt hle hroom
  have hfinished := Inv.finished_le s
  refine ⟨?_,hindex,hrdt,h.rdh,h.card,hle,hroom,?_,h.short,?_,hpolled,h.returned⟩
  · obtain ⟨frames,hinj,hframes⟩ := h.buffers
    refine ⟨frames,hinj,fun i => ⟨(hframes i).1,?_⟩⟩
    exact (E1000Driver.setStatus_bufferAddr ..).trans (hframes i).2
  · intro i
    show ((s.driver.setStatus s.driver.rxIndex 0).rxRing i).status &&& rdDd ≠ 0 ↔
      ∃ k, s.returned.length + 1 ≤ k ∧ k < s.finished ∧ i = bucket k
    rw [E1000Driver.setStatus_status,hindex]
    split
    · rename_i hi
      refine iff_of_false rdDd_clear ?_
      rintro ⟨k,hk,hlt,hik⟩
      exact bucket_ne hk (by omega) (hi.symm.trans hik)
    · rename_i hi
      rw [h.done,hcleared]
      constructor
      · rintro ⟨k,hk,hlt,hik⟩
        refine ⟨k,lt_of_le_of_ne hk ?_,hlt,hik⟩
        rintro rfl
        exact hi hik
      · rintro ⟨k,hk,hlt,hik⟩
        exact ⟨k,Nat.le_of_succ_le hk,hlt,hik⟩
  · intro k hk hlt
    obtain ⟨hlen,hdata⟩ := h.held k hk hlt
    exact ⟨(E1000Driver.setStatus_length ..).trans hlen,hdata⟩

theorem Inv.release (h : Inv s) {n : ℕ} (hpoll : s.poll = .cleared n) :
    Inv {s with driver := s.driver.releaseBucket,poll := .released s.driver.rxIndex n} := by
  have htaken : s.taken = s.returned.length := by rw [taken,hpoll]
  have hcleared : s.cleared = s.returned.length + 1 := by rw [cleared,hpoll]
  have hpolled := h.polled
  rw [Polled,hpoll] at hpolled
  have hindex := h.rxIndex
  have hroom := h.room
  have hdone := h.done
  rw [htaken] at hindex hroom
  rw [hcleared] at hdone
  refine ⟨h.buffers,?_,?_,h.rdh,h.card,hpolled.1,?_,hdone,h.short,h.held,?_,h.returned⟩
  · show s.driver.rxIndex + 1 = bucket (s.returned.length + 1)
    rw [hindex,bucket_succ]
  · show s.driver.rxIndex = bucket (s.returned.length + 1 + 31)
    rw [hindex,bucket_eq_iff]
    omega
  · show s.stored.length ≤ s.returned.length + 1 + 31
    omega
  · exact ⟨hpolled.1,hindex,hpolled.2⟩

theorem Inv.return (h : Inv s) {i : Bucket} {n : ℕ} (hpoll : s.poll = .released i n) :
    Inv {s with poll := .idle,returned := s.returned ++ [s.driver.packetData i n]} := by
  have htaken : s.taken = s.returned.length + 1 := by rw [taken,hpoll]
  have hcleared : s.cleared = s.returned.length + 1 := by rw [cleared,hpoll]
  have hpolled := h.polled
  rw [Polled,hpoll] at hpolled
  obtain ⟨hlt,rfl,rfl⟩ := hpolled
  have hfinished := Inv.finished_le s
  have hstored : s.returned.length < s.stored.length := hlt.trans_le hfinished
  have hdata := (h.held _ le_rfl hstored).2
  have hindex := h.rxIndex
  have hrdt := h.rdt
  have hle := h.returned_le
  have hroom := h.room
  have hdone := h.done
  rw [htaken] at hindex hrdt hle hroom
  rw [hcleared] at hdone
  have hcount : (s.returned ++ [s.driver.packetData (bucket s.returned.length)
      (s.frame s.returned.length).length]).length = s.returned.length + 1 := List.length_append
  rw [hdata] at hcount ⊢
  rw [← hcount] at hindex hrdt hle hroom hdone
  refine ⟨h.buffers,hindex,hrdt,h.rdh,h.card,hle,hroom,hdone,h.short,?_,trivial,?_⟩
  · intro k hk hlt
    exact h.held k (by rw [hcount] at hk; omega) hlt
  · have htake := List.prefix_iff_eq_take.mp h.returned
    have hnext : s.returned ++ [s.frame s.returned.length] =
        s.stored.take (s.returned.length + 1) := by
      calc s.returned ++ [s.frame s.returned.length]
        _ = s.stored.take s.returned.length ++ [s.stored[s.returned.length]] := by
          rw [← htake,frame,List.getD_eq_getElem _ _ hstored]
        _ = s.stored.take (s.returned.length + 1) := List.take_append_getElem hstored
    show s.returned ++ [s.frame s.returned.length] <+: s.stored
    rw [hnext]
    exact List.take_prefix _ _

theorem Inv.pollStep (h : Inv s) : Inv s.pollStep := by
  have hpolled := h.polled
  unfold ReceiveState.pollStep
  cases hpoll : s.poll with
  | idle =>
    simp only
    split
    · rename_i hdone
      refine h.read ?_ ?_ ((h.done_iff hpoll).mp hdone)
      · rw [taken,taken,hpoll]
      · rw [cleared,cleared,hpoll]
    · exact h
  | done =>
    rw [Polled,hpoll] at hpolled
    have hindex := h.rxIndex
    rw [taken,hpoll] at hindex
    refine h.read ?_ ?_ ⟨hpolled,?_⟩
    · rw [taken,taken,hpoll]
    · rw [cleared,cleared,hpoll]
    · rw [hindex]
      exact h.length_toNat le_rfl (hpolled.trans_le (Inv.finished_le s))
  | measured n => exact h.clear hpoll
  | cleared n => exact h.release hpoll
  | released i n => exact h.return hpoll

/-- The card only adds to what a call knows. -/
theorem Polled.mono (h : s.Polled) (hpoll : t.poll = s.poll) (hreturned : t.returned = s.returned)
    (hfinished : s.finished ≤ t.finished) (hframe : ∀ k < s.finished, t.frame k = s.frame k) :
    t.Polled := by
  unfold Polled at h ⊢
  rw [hpoll,hreturned]
  cases hs : s.poll with
  | idle => trivial
  | done =>
    rw [hs] at h
    exact h.trans_le hfinished
  | measured n =>
    rw [hs] at h
    exact ⟨h.1.trans_le hfinished,(hframe _ h.1).symm ▸ h.2⟩
  | cleared n =>
    rw [hs] at h
    exact ⟨h.1.trans_le hfinished,(hframe _ h.1).symm ▸ h.2⟩
  | released i n =>
    rw [hs] at h
    exact ⟨h.1.trans_le hfinished,h.2.1,(hframe _ h.1).symm ▸ h.2.2⟩

theorem Inv.store (h : Inv s) {frame : List UInt8} (hcard : s.card = .idle)
    (hne : s.driver.rdh ≠ s.driver.rdt) (hlen : frame.length ≤ 4096) : Inv (s.store frame) := by
  have hrdh : s.driver.rdh = bucket s.stored.length := by rw [h.rdh,if_pos hcard]; rfl
  have hfinished : s.finished = s.stored.length := by rw [finished,hcard]; rfl
  have hfinished' : (s.store frame).finished = s.stored.length := by
    show (s.stored ++ [frame]).length - 1 = _
    rw [List.length_append,List.length_singleton,Nat.add_sub_cancel]
  have hcount : (s.stored ++ [frame]).length = s.stored.length + 1 := List.length_append
  have hold : ∀ k < s.stored.length, (s.store frame).frame k = s.frame k := fun k hk =>
    List.getD_append _ _ _ _ hk
  have hnew : (s.store frame).frame s.stored.length = frame := by
    show (s.stored ++ [frame]).getD _ [] = frame
    rw [List.getD_append_right _ _ _ _ le_rfl,Nat.sub_self]
    rfl
  have hle := h.returned_le
  have hdone := h.done
  rw [hfinished] at hle hdone
  refine ⟨?_,h.rxIndex,h.rdt,?_,?_,?_,?_,?_,?_,?_,?_,?_⟩
  · obtain ⟨frames,hinj,hframes⟩ := h.buffers
    refine ⟨frames,hinj,fun i => ⟨(hframes i).1,?_⟩⟩
    exact (E1000Driver.storeFrame_bufferAddr ..).trans (hframes i).2
  · show s.driver.rdh = bucket ((s.stored ++ [frame]).length - 1)
    rw [hcount,hrdh,Nat.add_sub_cancel]
  · exact fun _ => List.append_ne_nil_of_right_ne_nil _ (List.cons_ne_nil _ _)
  · rw [hfinished']
    exact hle
  · show (s.stored ++ [frame]).length ≤ s.taken + 31
    rw [hcount]
    have hroom := h.room
    rw [hrdh,h.rdt,Ne,bucket_eq_iff] at hne
    omega
  · intro i
    show ((s.driver.storeFrame _ frame).rxRing i).status &&& rdDd ≠ 0 ↔ _
    rw [E1000Driver.storeFrame_status,hfinished']
    exact hdone i
  · intro k
    rcases lt_trichotomy k s.stored.length with hk | rfl | hk
    · rw [hold k hk]
      exact h.short k
    · rw [hnew]
      exact hlen
    · have hnil : (s.store frame).frame k = [] := List.getD_eq_default _ _ (hcount.trans_le hk)
      rw [hnil]
      exact Nat.zero_le _
  · intro k hk hlt
    show ((s.driver.storeFrame s.driver.rdh frame).rxRing (bucket k)).length = _ ∧
      (s.driver.storeFrame s.driver.rdh frame).packetData (bucket k) _ = _
    rw [E1000Driver.storeFrame_length]
    rcases Nat.lt_succ_iff_lt_or_eq.mp (hlt.trans_eq hcount) with hlt | rfl
    · have hbucket := h.bucket_ne_rdh hcard hne hk hlt
      rw [if_neg hbucket,hold k hlt,h.packetData_store hlen (h.short k) hbucket]
      exact h.held k hk hlt
    · rw [if_pos hrdh.symm,hnew,hrdh,h.packetData_stored]
      exact ⟨rfl,rfl⟩
  · exact h.polled.mono rfl rfl (hfinished.trans hfinished'.symm).le fun k hk =>
      hold k (hk.trans_eq hfinished)
  · exact h.returned.trans (List.prefix_append _ _)

theorem Inv.finish (h : Inv s) {status : UInt8} (hcard : s.card = .stored)
    (hstatus : status &&& rdDd ≠ 0) : Inv (s.finish status) := by
  have hpos : 0 < s.stored.length := List.length_pos_of_ne_nil (h.card (by rw [hcard]; decide))
  have hrdh : s.driver.rdh = bucket (s.stored.length - 1) := by rw [h.rdh,hcard]; rfl
  have hfinished : s.finished = s.stored.length - 1 := by rw [finished,hcard]; rfl
  have hfinished' : (s.finish status).finished = s.stored.length := rfl
  have hcleared := h.cleared_le
  have hdone := h.done
  rw [hfinished] at hdone hcleared
  refine ⟨?_,h.rxIndex,h.rdt,hrdh,fun _ => h.card (by rw [hcard]; decide),?_,h.room,?_,h.short,?_,?_,
    h.returned⟩
  · obtain ⟨frames,hinj,hframes⟩ := h.buffers
    refine ⟨frames,hinj,fun i => ⟨(hframes i).1,?_⟩⟩
    exact (E1000Driver.setStatus_bufferAddr ..).trans (hframes i).2
  · exact h.returned_le.trans (Inv.finished_le s)
  · intro i
    show ((s.driver.setStatus s.driver.rdh status).rxRing i).status &&& rdDd ≠ 0 ↔
      ∃ k, s.cleared ≤ k ∧ k < s.stored.length ∧ i = bucket k
    rw [E1000Driver.setStatus_status,hrdh]
    split
    · rename_i hi
      exact iff_of_true hstatus ⟨_,hcleared,Nat.sub_lt hpos Nat.one_pos,hi⟩
    · rename_i hi
      rw [hdone]
      constructor
      · rintro ⟨k,hk,hlt,hik⟩
        exact ⟨k,hk,by omega,hik⟩
      · rintro ⟨k,hk,hlt,hik⟩
        have hne : k ≠ s.stored.length - 1 := by
          rintro rfl
          exact hi hik
        exact ⟨k,hk,by omega,hik⟩
  · intro k hk hlt
    obtain ⟨hlen,hdata⟩ := h.held k hk hlt
    exact ⟨(E1000Driver.setStatus_length ..).trans hlen,hdata⟩
  · exact h.polled.mono rfl rfl (Inv.finished_le s) fun _ _ => rfl

theorem Inv.advance (h : Inv s) (hcard : s.card = .done) : Inv s.advance := by
  have hpos : 0 < s.stored.length := List.length_pos_of_ne_nil (h.card (by rw [hcard]; decide))
  have hrdh : s.driver.rdh = bucket (s.stored.length - 1) := by rw [h.rdh,hcard]; rfl
  have hfinished : s.advance.finished = s.finished := by
    rw [finished,finished,hcard]
    rfl
  have hle := h.returned_le
  have hdone := h.done
  rw [← hfinished] at hle hdone
  refine ⟨h.buffers,h.rxIndex,h.rdt,?_,fun hne => absurd rfl hne,hle,h.room,hdone,h.short,h.held,?_,
    h.returned⟩
  · show s.driver.rdh + 1 = bucket s.stored.length
    rw [hrdh,bucket_succ,Nat.sub_add_cancel hpos]
  · exact h.polled.mono rfl rfl hfinished.ge fun _ _ => rfl

theorem Inv.step {a : ReceiveAction} (h : Inv s) (hstep : ReceiveStep s a t) : Inv t := by
  cases hstep with
  | poll => exact h.pollStep
  | store hcard hne hlen => exact h.store hcard hne hlen
  | drop hcard heq => exact h
  | finish hcard hstatus => exact h.finish hcard hstatus
  | advance hcard => exact h.advance hcard

theorem Inv.reachable (h : receiveSystem.Reachable s) : Inv s := by
  apply h.invariant
  · rintro _ ⟨d,frames,hindex,hinj,rfl⟩
    refine ⟨⟨frames,hinj,fun i => ⟨rfl,rfl⟩⟩,hindex,rfl,rfl,fun hne => absurd rfl hne,le_rfl,
      Nat.zero_le _,?_,fun k => Nat.zero_le _,fun k _ hk => absurd hk (Nat.not_lt_zero k),trivial,
      List.prefix_rfl⟩
    intro i
    exact iff_of_false rdDd_clear fun ⟨k,_,hk,_⟩ => Nat.not_lt_zero k hk
  · exact fun s a t hs hstep => hs.step hstep

end ReceiveState

/-- In every run the frames that `poll_receive` returned are the first ones stored, the index
counts them, a call returns a frame whenever one is left, those left wait in their buckets, and
the card stores no frame in a bucket whose frame has not been returned. -/
theorem receiveSystem_inOrder {s : ReceiveState} (h : receiveSystem.Reachable s) :
    s.returned <+: s.stored ∧
    (s.poll = .idle → s.driver.rxIndex.val = s.returned.length % 32 ∧
      (s.driver.pollReceive.1.isSome ↔ s.returned.length < s.finished)) ∧
    (∀ k, s.returned.length ≤ k → k < s.stored.length →
      s.driver.packetData (bucket k) (s.frame k).length = s.frame k) ∧
    ∀ frame t, receiveSystem.step s (.store frame) t →
      ∀ k, s.returned.length ≤ k → k < s.stored.length → bucket k ≠ s.driver.rdh := by
  have hinv := ReceiveState.Inv.reachable h
  refine ⟨hinv.returned,fun hpoll => ?_,fun k hk hlt => (hinv.held k hk hlt).2,?_⟩
  · have hindex := hinv.rxIndex
    rw [ReceiveState.taken,hpoll] at hindex
    refine ⟨by rw [hindex]; rfl,?_⟩
    rw [← hinv.done_iff hpoll,E1000Driver.pollReceive]
    split
    · rename_i hdone
      exact iff_of_true rfl hdone
    · rename_i hdone
      exact iff_of_false Bool.false_ne_true hdone
  · intro frame t hstep k hk hlt
    cases hstep with
    | store hcard hne hlen => exact hinv.bucket_ne_rdh hcard hne hk hlt

namespace ReceiveState

/-- After `init_rx_ring` with the frames from 4 MiB on. -/
def start : ReceiveState where
  driver := TransmitState.start.driver.initRxRing fun i =>
    ⟨⟨0x400000 + 4096*i.val,by omega⟩,⟨0x400 + i.val,by dsimp only; omega⟩⟩
  poll := .idle
  card := .idle
  stored := []
  returned := []

theorem start_reachable : receiveSystem.Reachable start := by
  refine .init ⟨_,_,rfl,?_,rfl⟩
  intro i j he
  have hstart := congrArg (fun f : PhysFrame => f.startAddress.1) he
  apply Fin.ext
  simp only at hstart
  omega

theorem reachable_iterate {s : ReceiveState} (h : receiveSystem.Reachable s) (n : ℕ) :
    receiveSystem.Reachable (pollStep^[n] s) := by
  induction n with
  | zero => exact h
  | succ n ih =>
    rw [Function.iterate_succ_apply']
    exact ih.step .poll

/-- One frame comes in, and one call returns it. -/
theorem oneFrame_inOrder :
    let s := pollStep^[5] ((start.store [1,2]).finish 1)
    s.returned = [[1,2]] ∧ s.returned <+: s.stored ∧ s.driver.rxIndex.val = 1 := by
  have hstored : receiveSystem.Reachable (start.store [1,2]) :=
    start_reachable.step (.store rfl (by decide) (by decide))
  have hfinished : receiveSystem.Reachable ((start.store [1,2]).finish 1) :=
    hstored.step (.finish rfl (by decide))
  have hall := receiveSystem_inOrder (reachable_iterate hfinished 5)
  exact ⟨rfl,hall.1,(hall.2.1 rfl).1⟩

end ReceiveState
end PolymorphOS
