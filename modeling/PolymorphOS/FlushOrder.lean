import PolymorphOS.FlushSteps

/-! What the device executes of the flushes: the order of the commands survives exactly when
every descriptor and every draft still stand at the time the device comes to them. -/
namespace PolymorphOS

namespace FlushKind

theorem other_other (kind : FlushKind) : kind.other.other = kind := by cases kind <;> rfl

theorem command_size (kind : FlushKind) (args : FlushArgs) :
    (kind.command args).size = kind.len.toNat := by cases kind <;> rfl

theorem command_inj {kind kind' : FlushKind} {args args' : FlushArgs}
    (h : kind.command args = kind'.command args') : kind = kind' ∧ args = args' := by
  cases args
  cases args'
  cases kind <;> cases kind' <;> cases h <;> exact ⟨rfl,rfl⟩

theorem nth_even (i : ℕ) : nth (2 * i) = .transfer := if_pos (Nat.mul_mod_right 2 i)

theorem nth_odd (i : ℕ) : nth (2 * i + 1) = .flush := if_neg (by omega)

end FlushKind

namespace FlushDescriptors

/-- The descriptors of the next call: the pairs change places. -/
def swap (f : FlushDescriptors) : FlushDescriptors := ⟨f.idx3,f.tailIdx,f.headIdx,f.idx2⟩

/-- The descriptors of the `n`-th call, if the first one took these. -/
def turn (f : FlushDescriptors) (n : ℕ) : FlushDescriptors := if Even n then f else f.swap

/-- The descriptor of a command. -/
def head (f : FlushDescriptors) : FlushKind → Fin 64
  | .transfer => f.headIdx
  | .flush => f.idx3

def list (f : FlushDescriptors) : List (Fin 64) := [f.headIdx,f.idx2,f.idx3,f.tailIdx]

variable (f : FlushDescriptors)

theorem turn_zero : f.turn 0 = f := if_pos (by decide)

theorem turn_succ (n : ℕ) : f.turn (n + 1) = (f.turn n).swap := by
  unfold turn
  by_cases h : Even n
  · rw [if_pos h,if_neg (Nat.not_even_iff_odd.mpr h.add_one)]
  · rw [if_neg h,if_pos (Nat.not_even_iff_odd.mp h).add_one]
    rfl

theorem head_swap (kind : FlushKind) : f.swap.head kind = f.head kind.other := by
  cases kind <;> rfl

/-- An earlier call's descriptors among those of a later one. -/
theorem head_turn {i n : ℕ} (h : i ≤ n) (kind : FlushKind) :
    (f.turn i).head kind = (f.turn n).head (if Even (n - i) then kind else kind.other) := by
  induction n, h using Nat.le_induction with
  | base => rw [Nat.sub_self,if_pos (by decide)]
  | succ n h ih =>
    rw [ih,turn_succ,head_swap,Nat.sub_add_comm h]
    by_cases he : Even (n - i)
    · rw [if_pos he,if_neg (Nat.not_even_iff_odd.mpr he.add_one),FlushKind.other_other]
    · rw [if_neg he,if_pos (Nat.not_even_iff_odd.mp he).add_one]

theorem perm_list (n : ℕ) : (f.turn n).list.Perm f.list := by
  unfold turn
  split
  · exact List.Perm.refl _
  · have hswap : ([f.idx3,f.tailIdx] ++ [f.headIdx,f.idx2]).Perm
      ([f.headIdx,f.idx2] ++ [f.idx3,f.tailIdx]) := List.perm_append_comm
    exact hswap

/-- The four descriptors are distinct. -/
structure Distinct (f : FlushDescriptors) : Prop where
  head_idx2 : f.headIdx ≠ f.idx2
  head_idx3 : f.headIdx ≠ f.idx3
  head_tail : f.headIdx ≠ f.tailIdx
  idx2_idx3 : f.idx2 ≠ f.idx3
  idx2_tail : f.idx2 ≠ f.tailIdx
  idx3_tail : f.idx3 ≠ f.tailIdx

theorem distinct_of_nodup {f : FlushDescriptors} (h : f.list.Nodup) : f.Distinct := by
  simp only [list,List.nodup_cons,List.mem_cons,List.not_mem_nil,not_or,or_false] at h
  exact ⟨h.1.1,h.1.2.1,h.1.2.2,h.2.1.1,h.2.1.2,h.2.2.1⟩

end FlushDescriptors

/-- Of each command drafted, the latest draft is in the mailbox. -/
def Mailbox.Drafts (m : Mailbox) (calls : List FlushArgs) (drafts : FlushKind → ℕ) : Prop :=
  ∀ kind k args, drafts kind = k + 1 → calls[k]? = some args →
    m kind.offset = some (kind.command args)

/-- The two commands do not overlap. -/
theorem Mailbox.write_other {m : Mailbox} {kind : FlushKind} {args args' : FlushArgs}
    (h : m kind.other.offset = some (kind.other.command args')) :
    m.write kind.offset (kind.command args) kind.other.offset =
      some (kind.other.command args') := by
  apply Mailbox.write_of_disjoint h
  · rw [FlushKind.command_size,FlushKind.command_size]
    cases kind <;> decide
  · cases kind <;> decide

theorem Mailbox.Drafts.write {m : Mailbox} {calls calls' : List FlushArgs} {drafts : FlushKind → ℕ}
    {args : FlushArgs} (h : m.Drafts calls drafts) (kind : FlushKind)
    (hcalls : ∀ k < drafts kind.other, calls'[k]? = calls[k]?)
    (hargs : calls'[drafts kind]? = some args) :
    (m.write kind.offset (kind.command args)).Drafts calls'
      (Function.update drafts kind (drafts kind + 1)) := by
  intro kind' k a hk ha
  by_cases he : kind' = kind
  · subst he
    rw [Function.update_self] at hk
    cases Nat.succ.inj hk
    cases Option.some.inj (hargs.symm.trans ha)
    exact Mailbox.write_self _ _ _
  · obtain rfl : kind' = kind.other := by
      cases kind <;> cases kind' <;> first | exact absurd rfl he | rfl
    rw [Function.update_of_ne he] at hk
    rw [hcalls k (by omega)] at ha
    exact Mailbox.write_other (h _ k a hk ha)

namespace VirtioGpuDriver

variable {d d' : VirtioGpuDriver} {i : Fin 64} {kind : FlushKind}

/-- The descriptor stands for the command drafted at its place in the mailbox. -/
def Points (d : VirtioGpuDriver) (i : Fin 64) (kind : FlushKind) : Prop :=
  (d.queue.descriptors i).addr = d.address kind.offset ∧ (d.queue.descriptors i).len = kind.len

theorem Points.congr (h : d.Points i kind) (hphys : d'.mailboxPhys = d.mailboxPhys)
    (haddr : (d'.queue.descriptors i).addr = (d.queue.descriptors i).addr)
    (hlen : (d'.queue.descriptors i).len = (d.queue.descriptors i).len) : d'.Points i kind := by
  constructor
  · rw [haddr,h.1,address,address,hphys]
  · rw [hlen,h.2]

theorem Points.commandAt {args : FlushArgs} (h : d.Points i kind)
    (hm : d.mailbox kind.offset = some (kind.command args)) :
    d.commandAt (d.queue.descriptors i).addr (d.queue.descriptors i).len =
      some (kind.command args) := by
  have hlt := d.mailboxPhys.2
  have hoffset : kind.offset ≤ 56 := by cases kind <;> decide
  have haddr : (d.address kind.offset).toNat = d.mailboxPhys.1 + kind.offset := by
    rw [address,UInt64.toNat_ofNat']
    exact Nat.mod_eq_of_lt (by omega)
  rw [VirtioGpuDriver.commandAt,h.1,h.2,haddr,if_pos (Nat.le_add_right _ _),
    Nat.add_sub_cancel_left,hm,Option.filter_some,FlushKind.command_size,
    if_pos (decide_eq_true rfl)]

/-- Filling in a chain makes its head stand for the command. -/
theorem points_load {q : VirtQueue} {reply : Fin 64} {addr : UInt64} {len : UInt32}
    (hphys : d'.mailboxPhys = d.mailboxPhys) (hne : i ≠ reply)
    (hq : d'.queue = (q.load i (d.address kind.offset) kind.len virtqDescFNext).load reply addr len
      virtqDescFWrite) : d'.Points i kind := by
  have hdesc : d'.queue.descriptors i = ⟨d.address kind.offset,kind.len,virtqDescFNext,q.link i⟩ := by
    rw [hq,VirtQueue.load_descriptors,Function.update_of_ne hne,VirtQueue.load_descriptors,
      Function.update_self]
  constructor
  · rw [hdesc,address,address,hphys]
  · rw [hdesc]

theorem Points.load_of_ne {head reply : Fin 64} {addr addr' : UInt64} {len len' : UInt32}
    {flags flags' : UInt16} (h : d.Points i kind) (hphys : d'.mailboxPhys = d.mailboxPhys)
    (hhead : i ≠ head) (hreply : i ≠ reply)
    (hq : d'.queue = (d.queue.load head addr len flags).load reply addr' len' flags') :
    d'.Points i kind := by
  have hdesc : d'.queue.descriptors i = d.queue.descriptors i := by
    rw [hq,VirtQueue.load_descriptors,Function.update_of_ne hreply,VirtQueue.load_descriptors,
      Function.update_of_ne hhead]
  exact h.congr hphys (congrArg VirtqDesc.addr hdesc) (congrArg VirtqDesc.len hdesc)

end VirtioGpuDriver

namespace FlushPc

/-- How many effects the call in progress has had; `idle` if there is none. -/
def phase : FlushPc → ℕ
  | .idle => 0
  | .transferDrafted _ => 1
  | .drafted => 2
  | .transferLoaded _ => 3
  | .loaded _ => 4
  | .published _ => 5

/-- The queue as the call in progress, the `n`-th, has left it so far. -/
def Holds (f₀ : FlushDescriptors) (rest : List (Fin 64)) (n : ℕ) (vq : VirtQueue) : FlushPc → Prop
  | .transferLoaded f => f = f₀.turn n ∧ vq.Free rest ∧ vq.Chain f.headIdx f.idx2 ∧
    VirtQueue.deref (vq.link f.idx3) = some f.tailIdx
  | .loaded f => f = f₀.turn n ∧ vq.Free rest ∧ vq.Chain f.headIdx f.idx2 ∧
    vq.Chain f.idx3 f.tailIdx
  | .published f => f = f₀.turn n ∧ vq.Free rest ∧ vq.Chain f.headIdx f.idx2 ∧
    vq.Chain f.idx3 f.tailIdx
  | _ => vq.Free ((f₀.turn n).list ++ rest)

end FlushPc

namespace FlushCalls

/-- The counters when `n` calls have returned. -/
structure Counts (s : FlushCalls) (n : ℕ) : Prop where
  calls : s.calls.length = n + if 1 ≤ s.pc.phase then 1 else 0
  transferDrafts : s.drafts .transfer = n + if 1 ≤ s.pc.phase then 1 else 0
  flushDrafts : s.drafts .flush = n + if 2 ≤ s.pc.phase then 1 else 0
  transferLoads : s.loads .transfer = n + if 3 ≤ s.pc.phase then 1 else 0
  flushLoads : s.loads .flush = n + if 4 ≤ s.pc.phase then 1 else 0
  published : s.published = n + if 5 ≤ s.pc.phase then 1 else 0

/-- What the command descriptors stand for: after a call has filled in both, its commands;
between the two, both the transfer. -/
structure Roles (f₀ : FlushDescriptors) (d : VirtioGpuDriver) (loads : FlushKind → ℕ) : Prop where
  both : ∀ k, loads .transfer = k + 1 → loads .flush = k + 1 →
    ∀ kind, d.Points ((f₀.turn k).head kind) kind
  between : ∀ k, loads .transfer = k + 1 → loads .flush = k →
    d.Points ((f₀.turn k).head .transfer) .transfer ∧
      (0 < k → d.Points ((f₀.turn k).head .flush) .transfer)

/-- The head published `m`-th. -/
def entry (f₀ : FlushDescriptors) (m : ℕ) : Fin 64 := (f₀.turn (m / 2)).head (.nth m)

/-- The driver's side of the invariant, `f₀` and `rest` being the free list and `p` the heads
published before the first flush. -/
structure Inv (f₀ : FlushDescriptors) (rest p : List (Fin 64)) (n : ℕ) (s : FlushCalls) : Prop where
  nodup : (f₀.list ++ rest).Nodup
  counts : s.Counts n
  args : ∀ args, s.pc = .transferDrafted args → s.calls[n]? = some args
  queue : s.pc.Holds f₀ rest n s.driver.queue
  mailbox : s.driver.mailbox.Drafts s.calls s.drafts
  roles : Roles f₀ s.driver s.loads
  logged : s.driver.queue.Logged (p ++ (List.range (2 * s.published)).map (entry f₀))

/-- A call publishes the heads of its two chains. -/
theorem entries_succ (f₀ : FlushDescriptors) (n : ℕ) :
    (List.range (2 * (n + 1))).map (entry f₀) =
      (List.range (2 * n)).map (entry f₀) ++ [(f₀.turn n).headIdx,(f₀.turn n).idx3] := by
  rw [Nat.mul_succ,List.range_succ,List.range_succ,List.append_assoc,List.map_append]
  congr 1
  show [entry f₀ (2 * n),entry f₀ (2 * n + 1)] = _
  unfold entry
  rw [FlushKind.nth_even,FlushKind.nth_odd,show 2 * n / 2 = n by omega,
    show (2 * n + 1) / 2 = n by omega]
  rfl

variable {f₀ : FlushDescriptors} {rest p : List (Fin 64)} {n m : ℕ} {s t : FlushCalls}

theorem Inv.distinct (h : s.Inv f₀ rest p n) (k : ℕ) : (f₀.turn k).Distinct :=
  FlushDescriptors.distinct_of_nodup
    ((f₀.perm_list k).nodup_iff.mpr (List.nodup_append.mp h.nodup).1)

/-- What the `m`-th head points to follows from the number of calls since. -/
theorem Inv.points (h : s.Inv f₀ rest p n) (hm : m / 2 < s.loads .flush) :
    s.driver.Points (entry f₀ m) (s.target m) := by
  have ht := h.counts.transferLoads
  have hf := h.counts.flushLoads
  unfold entry target
  by_cases heq : s.loads .transfer = s.loads .flush
  · obtain ⟨k,hk⟩ : ∃ k, s.loads .flush = k + 1 := ⟨s.loads .flush - 1,by omega⟩
    rw [if_pos heq,hk,Nat.add_sub_cancel,f₀.head_turn (Nat.le_of_lt_succ (hk ▸ hm))]
    exact h.roles.both k (heq.trans hk) hk _
  · have hmid : s.loads .transfer = s.loads .flush + 1 := by
      split at ht <;> split at hf <;> omega
    rw [if_neg heq,f₀.head_turn hm.le]
    obtain ⟨htransfer,hflush⟩ := h.roles.between _ hmid rfl
    generalize (if Even (s.loads .flush - m / 2) then FlushKind.nth m else _) = kind
    cases kind with
    | transfer => exact htransfer
    | flush => exact hflush (Nat.zero_lt_of_lt hm)

/-- The device executes, for the `m`-th head, the latest draft of the command it points to. -/
theorem Inv.fetch (h : s.Inv f₀ rest p n) (hm : m < 2 * s.published)
    (hlast : 2 * s.published ≤ m + 64) : ∃ args,
      s.calls[s.drafts (s.target m) - 1]? = some args ∧
      s.driver.fetch (p.length + m) = some ((s.target m).command args) := by
  have hpublished := h.counts.published
  have hloads := h.counts.flushLoads
  have hcalls := h.counts.calls
  have hdrafts : 0 < s.drafts (s.target m) ∧ s.drafts (s.target m) ≤ s.calls.length := by
    have ht := h.counts.transferDrafts
    have hf := h.counts.flushDrafts
    split_ifs at * <;> cases s.target m <;> omega
  have hpoints := h.points (m := m) (by split_ifs at * <;> omega)
  obtain ⟨k,hk⟩ : ∃ k, s.drafts (s.target m) = k + 1 := ⟨s.drafts (s.target m) - 1,by omega⟩
  have hlt : k < s.calls.length := by omega
  have hslot := h.logged.ring (p.length + m) (by simp; omega) (by simp; omega)
  have hget : (p ++ (List.range (2 * s.published)).map (entry f₀)).get
      ⟨p.length + m,by simp; omega⟩ = entry f₀ m := by
    rw [List.get_eq_getElem]
    simp
  rw [hget] at hslot
  refine ⟨s.calls[k],?_,?_⟩
  · rw [hk,Nat.add_sub_cancel,List.getElem?_eq_getElem hlt]
  · rw [VirtioGpuDriver.fetch,hslot,VirtQueue.deref_ofNat]
    exact hpoints.commandAt (h.mailbox _ k _ hk (List.getElem?_eq_getElem hlt))

/-- That is the command published with the head exactly if the head is intact. -/
theorem Inv.fetch_eq_iff (h : s.Inv f₀ rest p n) (hm : m < 2 * s.published)
    (hlast : 2 * s.published ≤ m + 64) :
    s.driver.fetch (p.length + m) = (s.calls[m / 2]?).map (FlushKind.nth m).command ↔
      s.Intact m := by
  obtain ⟨args,hargs,hfetch⟩ := h.fetch hm hlast
  have hpublished := h.counts.published
  have hcalls := h.counts.calls
  have hlt : m / 2 < s.calls.length := by split_ifs at * <;> omega
  rw [hfetch,List.getElem?_eq_getElem hlt,Option.map_some,Option.some_inj]
  unfold Intact
  rw [List.getElem?_eq_getElem hlt]
  constructor
  · intro he
    obtain ⟨hkind,rfl⟩ := FlushKind.command_inj he
    rw [← hkind]
    exact ⟨rfl,hargs⟩
  · rintro ⟨hkind,hsame⟩
    rw [← hkind,hargs] at hsame
    rw [hkind,Option.some.inj hsame]

theorem Roles.congr {d d' : VirtioGpuDriver} {loads : FlushKind → ℕ} (h : Roles f₀ d loads)
    (hphys : d'.mailboxPhys = d.mailboxPhys)
    (hdesc : ∀ i, (d'.queue.descriptors i).addr = (d.queue.descriptors i).addr ∧
      (d'.queue.descriptors i).len = (d.queue.descriptors i).len) : Roles f₀ d' loads where
  both k ht hf kind := (h.both k ht hf kind).congr hphys (hdesc _).1 (hdesc _).2
  between k ht hf := by
    obtain ⟨hold,hold'⟩ := h.between k ht hf
    exact ⟨hold.congr hphys (hdesc _).1 (hdesc _).2,
      fun hk => (hold' hk).congr hphys (hdesc _).1 (hdesc _).2⟩

/-- The `n`-th call's transfer takes the descriptor that was the flush's in the call before, and
the other one still stands for that call's transfer. -/
theorem Roles.loadTransfer {d : VirtioGpuDriver} {q : VirtQueue} {loads : FlushKind → ℕ}
    (h : Roles f₀ d loads) (ht : loads .transfer = n) (hf : loads .flush = n)
    (hdist : (f₀.turn n).Distinct) (hdesc : q.descriptors = d.queue.descriptors) :
    Roles f₀ (VirtioGpuDriver.loadTransfer {d with queue := q} (f₀.turn n))
      (Function.update loads .transfer (loads .transfer + 1)) where
  both k hk hk' := by
    rw [Function.update_self,ht] at hk
    rw [Function.update_of_ne (by decide),hf] at hk'
    exact absurd (hk.trans hk'.symm) (Nat.succ_ne_self n)
  between k _ hk := by
    rw [Function.update_of_ne (by decide),hf] at hk
    subst hk
    refine ⟨VirtioGpuDriver.points_load rfl hdist.head_idx2 rfl,fun hn => ?_⟩
    obtain ⟨k,rfl⟩ : ∃ k, n = k + 1 := ⟨n - 1,by omega⟩
    have hhead : (f₀.turn (k + 1)).head .flush = (f₀.turn k).head .transfer := by
      rw [f₀.turn_succ,FlushDescriptors.head_swap]
      rfl
    have hold := h.both k ht hf .transfer
    rw [← hhead] at hold
    have hold' : VirtioGpuDriver.Points {d with queue := q} ((f₀.turn (k + 1)).head .flush)
        .transfer := hold.congr rfl (by rw [hdesc]) (by rw [hdesc])
    exact hold'.load_of_ne rfl (Ne.symm hdist.head_idx3) (Ne.symm hdist.idx2_idx3) rfl

/-- Then its flush takes that one. -/
theorem Roles.loadFlush {d : VirtioGpuDriver} {loads : FlushKind → ℕ} (h : Roles f₀ d loads)
    (ht : loads .transfer = n + 1) (hf : loads .flush = n) (hdist : (f₀.turn n).Distinct) :
    Roles f₀ (d.loadFlush (f₀.turn n)) (Function.update loads .flush (loads .flush + 1)) where
  both k _ hk kind := by
    rw [Function.update_self,hf] at hk
    cases Nat.succ.inj hk
    obtain ⟨hold,_⟩ := h.between n ht hf
    cases kind with
    | transfer => exact hold.load_of_ne rfl hdist.head_idx3 hdist.head_tail rfl
    | flush => exact VirtioGpuDriver.points_load rfl hdist.idx3_tail rfl
  between k hk hk' := by
    rw [Function.update_of_ne (by decide),ht] at hk
    rw [Function.update_self,hf] at hk'
    exact absurd (hk'.trans (Nat.succ.inj hk).symm) (Nat.succ_ne_self n)

theorem loaded_self (s : FlushCalls) (kind : FlushKind) :
    s.loaded kind kind = s.loads kind + 1 := Function.update_self ..

theorem drafted_self (s : FlushCalls) (kind : FlushKind) :
    s.drafted kind kind = s.drafts kind + 1 := Function.update_self ..

/-- A call begins. -/
theorem Inv.begin {args : FlushArgs} (h : s.Inv f₀ rest p n) (hpc : s.pc = .idle) :
    Inv f₀ rest p n {s with
      driver := s.driver.draftTransfer args
      pc := .transferDrafted args
      calls := s.calls ++ [args]
      drafts := s.drafted .transfer} := by
  obtain ⟨hcalls,htd,hfd,htl,hfl,hpub⟩ := h.counts
  have hqueue := h.queue
  rw [hpc] at hcalls htd hfd htl hfl hpub hqueue
  constructor
  · exact h.nodup
  · refine ⟨?_,?_,hfd,htl,hfl,hpub⟩
    · rw [List.length_append,hcalls]
      rfl
    · exact (s.drafted_self .transfer).trans (congrArg Nat.succ htd)
  · rintro _ ⟨⟩
    show (s.calls ++ [args])[n]? = some args
    rw [← show s.calls.length = n from hcalls]
    exact List.getElem?_concat_length
  · exact hqueue
  · apply h.mailbox.write .transfer
    · intro k hk
      apply List.getElem?_append_left
      rw [hcalls]
      exact hk.trans_eq hfd
    · rw [htd,← hcalls]
      exact List.getElem?_concat_length
  · exact h.roles.congr rfl fun _ => ⟨rfl,rfl⟩
  · exact h.logged

/-- The flush command is drafted behind the transfer. -/
theorem Inv.draftFlush {args : FlushArgs} (h : s.Inv f₀ rest p n)
    (hpc : s.pc = .transferDrafted args) :
    Inv f₀ rest p n {s with
      driver := s.driver.draftFlush args
      pc := .drafted
      drafts := s.drafted .flush} := by
  obtain ⟨hcalls,htd,hfd,htl,hfl,hpub⟩ := h.counts
  have hqueue := h.queue
  have hargs := h.args args hpc
  rw [hpc] at hcalls htd hfd htl hfl hpub hqueue
  constructor
  · exact h.nodup
  · refine ⟨hcalls,htd,?_,htl,hfl,hpub⟩
    exact (s.drafted_self .flush).trans (congrArg Nat.succ hfd)
  · rintro _ ⟨⟩
  · exact hqueue
  · apply h.mailbox.write .flush
    · exact fun _ _ => rfl
    · rw [hfd]
      exact hargs
  · exact h.roles.congr rfl fun _ => ⟨rfl,rfl⟩
  · exact h.logged

/-- Four descriptors are taken, and the transfer's chain is filled in. -/
theorem Inv.loadTransfer (build : Profile) (h : s.Inv f₀ rest p n) (hpc : s.pc = .drafted) :
    ∃ f d, s.driver.grab build = .ok (f,d) ∧ Inv f₀ rest p n {s with
      driver := d.loadTransfer f
      pc := .transferLoaded f
      loads := s.loaded .transfer} := by
  obtain ⟨hcalls,htd,hfd,htl,hfl,hpub⟩ := h.counts
  have hqueue := h.queue
  rw [hpc] at hcalls htd hfd htl hfl hpub hqueue
  obtain ⟨q,hgrab,hfree,hdesc,havail⟩ := VirtioGpuDriver.grab_spec build hqueue
  have hlink : q.link = s.driver.queue.link := by
    funext i
    rw [VirtQueue.link,VirtQueue.link,hdesc]
  have hdist := h.distinct n
  obtain ⟨hidx2,_,htail⟩ := VirtQueue.Free.links hqueue
  refine ⟨_,_,hgrab,?_⟩
  constructor
  · exact h.nodup
  · refine ⟨hcalls,htd,hfd,?_,hfl,hpub⟩
    exact (s.loaded_self .transfer).trans (congrArg Nat.succ htl)
  · rintro _ ⟨⟩
  · refine ⟨rfl,hfree.load.load,?_,?_⟩
    · apply VirtQueue.Chain.load hdist.head_idx2
      rw [hlink]
      exact hidx2
    · show VirtQueue.deref (VirtQueue.link (VirtQueue.load (VirtQueue.load q _ _ _ _) _ _ _ _) _) = _
      rw [VirtQueue.load_link,VirtQueue.load_link,hlink]
      exact htail
  · exact h.mailbox
  · exact h.roles.loadTransfer htl hfl hdist hdesc
  · exact h.logged.congr havail

/-- The flush's chain is filled in. -/
theorem Inv.loadFlush {f : FlushDescriptors} (h : s.Inv f₀ rest p n)
    (hpc : s.pc = .transferLoaded f) :
    Inv f₀ rest p n {s with
      driver := s.driver.loadFlush f
      pc := .loaded f
      loads := s.loaded .flush} := by
  obtain ⟨hcalls,htd,hfd,htl,hfl,hpub⟩ := h.counts
  have hqueue := h.queue
  rw [hpc] at hcalls htd hfd htl hfl hpub hqueue
  obtain ⟨rfl,hfree,hchain,hlink⟩ := hqueue
  have hdist := h.distinct n
  constructor
  · exact h.nodup
  · refine ⟨hcalls,htd,hfd,htl,?_,hpub⟩
    exact (s.loaded_self .flush).trans (congrArg Nat.succ hfl)
  · rintro _ ⟨⟩
  · refine ⟨rfl,hfree.load.load,?_,VirtQueue.Chain.load hdist.idx3_tail hlink⟩
    exact (hchain.load_of_ne hdist.head_idx3 hdist.idx2_idx3).load_of_ne hdist.head_tail
      hdist.idx2_tail
  · exact h.mailbox
  · exact h.roles.loadFlush htl hfl hdist
  · exact h.logged.congr rfl

/-- Both heads enter the ring. -/
theorem Inv.publish {f : FlushDescriptors} (h : s.Inv f₀ rest p n) (hpc : s.pc = .loaded f) :
    Inv f₀ rest p n {s with
      driver := s.driver.publishPair f
      pc := .published f
      published := s.published + 1} := by
  obtain ⟨hcalls,htd,hfd,htl,hfl,hpub⟩ := h.counts
  have hqueue := h.queue
  rw [hpc] at hcalls htd hfd htl hfl hpub hqueue
  obtain ⟨rfl,hfree,htransfer,hflush⟩ := hqueue
  constructor
  · exact h.nodup
  · exact ⟨hcalls,htd,hfd,htl,hfl,congrArg Nat.succ hpub⟩
  · rintro _ ⟨⟩
  · exact ⟨rfl,hfree.congr rfl rfl rfl,htransfer.congr rfl fun _ => rfl,
      hflush.congr rfl fun _ => rfl⟩
  · exact h.mailbox
  · exact h.roles.congr rfl fun _ => ⟨rfl,rfl⟩
  · have hn : s.published = n := hpub
    have hqueue : (s.driver.publishPair (f₀.turn n)).queue =
        (s.driver.queue.publish (f₀.turn n).headIdx).publish (f₀.turn n).idx3 :=
      h.logged.publish_pair _ _
    have hlogged := (h.logged.publish (f₀.turn n).headIdx).publish (f₀.turn n).idx3
    rw [List.append_assoc,List.append_assoc,hn] at hlogged
    show (s.driver.publishPair (f₀.turn n)).queue.Logged
      (p ++ (List.range (2 * (s.published + 1))).map (entry f₀))
    rw [hqueue,hn,entries_succ]
    exact hlogged

/-- The pairs come back the other way round. -/
theorem Inv.reclaim (build : Profile) {f : FlushDescriptors} (h : s.Inv f₀ rest p n)
    (hpc : s.pc = .published f) :
    ∃ d, s.driver.reclaimPair build f = .ok d ∧
      Inv f₀ rest p (n + 1) {s with driver := d,pc := .idle} := by
  obtain ⟨hcalls,htd,hfd,htl,hfl,hpub⟩ := h.counts
  have hqueue := h.queue
  rw [hpc] at hcalls htd hfd htl hfl hpub hqueue
  obtain ⟨rfl,hfree,htransfer,hflush⟩ := hqueue
  have hperm : ((f₀.turn (n + 1)).list ++ rest).Perm (f₀.list ++ rest) :=
    (f₀.perm_list (n + 1)).append_right rest
  have hnd := hperm.nodup_iff.mpr h.nodup
  rw [f₀.turn_succ] at hnd
  obtain ⟨q,hq,hfree',havail,hdesc⟩ :=
    VirtioGpuDriver.reclaimPair_spec build hfree htransfer hflush hnd
  refine ⟨_,hq,?_⟩
  constructor
  · exact h.nodup
  · exact ⟨hcalls,htd,hfd,htl,hfl,hpub⟩
  · rintro _ ⟨⟩
  · show q.Free ((f₀.turn (n + 1)).list ++ rest)
    rw [f₀.turn_succ]
    exact hfree'
  · exact h.mailbox
  · refine h.roles.congr rfl fun i => ?_
    show (q.descriptors i).addr = _ ∧ (q.descriptors i).len = _
    rw [hdesc,VirtQueue.relink_apply,VirtQueue.relink_apply]
    exact ⟨rfl,rfl⟩
  · exact h.logged.congr havail

/-- Every effect succeeds and keeps the invariant. -/
theorem Inv.step (build : Profile) (h : s.Inv f₀ rest p n) (args : FlushArgs) :
    ∃ t k, s.step build args = .ok t ∧ t.Inv f₀ rest p k ∧ s.calls <+: t.calls ∧
      s.published ≤ t.published ∧ t.published ≤ s.published + 1 := by
  unfold FlushCalls.step
  cases hpc : s.pc with
  | idle =>
    by_cases hnum : s.driver.queue.numFree < 4
    · exact ⟨s,n,if_pos hnum,h,List.prefix_refl _,le_rfl,Nat.le_succ _⟩
    · exact ⟨_,n,if_neg hnum,h.begin hpc,List.prefix_append _ _,le_rfl,Nat.le_succ _⟩
  | transferDrafted args =>
    exact ⟨_,n,rfl,h.draftFlush hpc,List.prefix_refl _,le_rfl,Nat.le_succ _⟩
  | drafted =>
    obtain ⟨f,d,hgrab,hinv⟩ := h.loadTransfer build hpc
    refine ⟨_,n,?_,hinv,List.prefix_refl _,le_rfl,Nat.le_succ _⟩
    simp only [hgrab,bind,Except.bind]
  | transferLoaded f =>
    exact ⟨_,n,rfl,h.loadFlush hpc,List.prefix_refl _,le_rfl,Nat.le_succ _⟩
  | loaded f =>
    exact ⟨_,n,rfl,h.publish hpc,List.prefix_refl _,Nat.le_succ _,le_rfl⟩
  | published f =>
    obtain ⟨d,hd,hinv⟩ := h.reclaim build hpc
    refine ⟨_,n + 1,?_,hinv,List.prefix_refl _,le_rfl,Nat.le_succ _⟩
    simp only [hd,bind,Except.bind]

end FlushCalls

/-- The invariant: the driver's, and the verdict on every entry that was processed. -/
structure FlushState.Inv (f₀ : FlushDescriptors) (rest p : List (Fin 64)) (n : ℕ)
    (s : FlushState) : Prop where
  host : s.host.Inv f₀ rest p n
  seen : s.seen = UInt16.ofNat (p.length + s.executed.length)
  executed_le : s.executed.length ≤ 2 * s.host.published
  outstanding : 2 * s.host.published ≤ s.executed.length + 64
  length : s.intact.length = s.executed.length
  verdict : ∀ m < s.executed.length,
    s.executed[m]? = some ((s.host.calls[m / 2]?).map (FlushKind.nth m).command) ↔
      s.intact[m]? = some true

namespace FlushState

variable {build : Profile} {f₀ : FlushDescriptors} {rest p : List (Fin 64)} {n : ℕ}
  {s t : FlushState}

theorem Inv.idx (h : s.Inv f₀ rest p n) :
    s.host.driver.queue.available.idx = UInt16.ofNat (p.length + 2 * s.host.published) := by
  rw [h.host.logged.idx,List.length_append,List.length_map,List.length_range]

theorem Inv.call {host : FlushCalls} {args : FlushArgs} (h : s.Inv f₀ rest p n)
    (hstep : s.host.step build args = .ok host)
    (hroom : (host.driver.queue.available.idx - s.seen).toNat ≤ 64) :
    ∃ k, Inv f₀ rest p k {s with host} := by
  obtain ⟨t,k,ht,hinv,hcalls,hle,hle'⟩ := h.host.step build args
  cases Except.ok.inj (hstep.symm.trans ht)
  have hexecuted := h.executed_le
  have houtstanding := h.outstanding
  have hpublished := h.host.counts.published
  have hlen := h.host.counts.calls
  have hidx : host.driver.queue.available.idx =
      UInt16.ofNat (p.length + s.executed.length) +
        UInt16.ofNat (2 * host.published - s.executed.length) := by
    rw [hinv.logged.idx,List.length_append,List.length_map,List.length_range,← UInt16.ofNat_add]
    congr 1
    omega
  refine ⟨k,hinv,h.seen,hexecuted.trans (Nat.mul_le_mul_left 2 hle),?_,h.length,?_⟩
  · rw [hidx,h.seen,UInt16.add_comm,UInt16.add_sub_cancel,UInt16.toNat_ofNat'] at hroom
    show 2 * host.published ≤ s.executed.length + 64
    omega
  · intro m hm
    have hget : host.calls[m / 2]? = s.host.calls[m / 2]? := by
      obtain ⟨r,hr⟩ := hcalls
      rw [← hr]
      apply List.getElem?_append_left
      have hm' : m < s.executed.length := hm
      split_ifs at hpublished hlen <;> omega
    rw [hget]
    exact h.verdict m hm

theorem Inv.process (h : s.Inv f₀ rest p n)
    (hseen : s.seen ≠ s.host.driver.queue.available.idx) : Inv f₀ rest p n s.process := by
  have hlt : s.executed.length < 2 * s.host.published := by
    apply lt_of_le_of_ne h.executed_le
    intro he
    apply hseen
    rw [h.seen,h.idx,he]
  have hfetch : s.host.driver.fetch s.seen.toNat =
      s.host.driver.fetch (p.length + s.executed.length) := by
    unfold VirtioGpuDriver.fetch
    rw [h.seen,VirtQueue.slot_ofNat]
  have hiff := h.host.fetch_eq_iff hlt h.outstanding
  have houtstanding := h.outstanding
  refine ⟨h.host,?_,?_,?_,?_,?_⟩
  · show s.seen + 1 = _
    rw [h.seen,FlushState.process,List.length_append,List.length_singleton]
    exact (UInt16.ofNat_add (p.length + s.executed.length) 1).symm
  · rw [FlushState.process,List.length_append,List.length_singleton]
    exact hlt
  · rw [FlushState.process,List.length_append,List.length_singleton]
    exact houtstanding.trans (by omega)
  · rw [FlushState.process,List.length_append,List.length_append,h.length]
    rfl
  · intro m hm
    rw [FlushState.process,List.length_append,List.length_singleton] at hm
    rw [FlushState.process]
    by_cases hm' : m < s.executed.length
    · rw [List.getElem?_append_left hm',List.getElem?_append_left (h.length.symm ▸ hm')]
      exact h.verdict m hm'
    · obtain rfl : m = s.executed.length := by omega
      rw [List.getElem?_concat_length,← h.length,List.getElem?_concat_length,h.length,hfetch,
        Option.some_inj,Option.some_inj,hiff,decide_eq_true_iff]

theorem Inv.step {a : FlushAction} (h : s.Inv f₀ rest p n) (hstep : FlushStep build s a t) :
    ∃ k, t.Inv f₀ rest p k := by
  cases hstep with
  | call hstep hroom => exact h.call hstep hroom
  | process hseen => exact ⟨n,h.process hseen⟩

theorem Inv.start {d : VirtioGpuDriver} {l : List (Fin 64)} (hfree : d.queue.Free l)
    (hlen : 4 ≤ l.length) (hlog : d.queue.Logged p) : ∃ f₀ rest, Inv f₀ rest p 0 (start d) := by
  obtain ⟨a,b,c,e,rest,rfl⟩ := VirtQueue.Free.exists_four hlen
  refine ⟨⟨a,b,c,e⟩,rest,⟨hfree.nodup,⟨rfl,rfl,rfl,rfl,rfl,rfl⟩,?_,?_,?_,?_,?_⟩,?_,le_rfl,
    Nat.zero_le _,rfl,?_⟩
  · rintro _ ⟨⟩
  · show d.queue.Free ((FlushDescriptors.turn ⟨a,b,c,e⟩ 0).list ++ rest)
    rw [FlushDescriptors.turn_zero]
    exact hfree
  · exact fun _ _ _ hk => absurd hk (Nat.succ_ne_zero _).symm
  · exact ⟨fun _ hk => absurd hk (Nat.succ_ne_zero _).symm,
      fun _ hk => absurd hk (Nat.succ_ne_zero _).symm⟩
  · show d.queue.Logged (p ++ [])
    rw [List.append_nil]
    exact hlog
  · exact hlog.idx
  · exact fun _ hm => absurd hm (Nat.not_lt_zero _)

theorem Inv.reachable (h : (flushSystem build).Reachable s) :
    ∃ f₀ rest p n, s.Inv f₀ rest p n := by
  refine h.invariant (I := fun s => ∃ f₀ rest p n, s.Inv f₀ rest p n) ?_ fun s a t hs hstep => ?_
  · rintro _ ⟨d,l,p,hfree,hlen,hlog,rfl⟩
    obtain ⟨f₀,rest,hinv⟩ := Inv.start hfree hlen hlog
    exact ⟨f₀,rest,p,0,hinv⟩
  · obtain ⟨f₀,rest,p,n,hinv⟩ := hs
    obtain ⟨k,hk⟩ := hinv.step hstep
    exact ⟨f₀,rest,p,k,hk⟩

end FlushState

theorem FlushCalls.commands_getElem? (l : List FlushArgs) (m : ℕ) :
    (l.flatMap fun args => [args.transferCommand,args.flushCommand])[m]? =
      (l[m / 2]?).map (FlushKind.nth m).command := by
  induction l generalizing m with
  | nil => rfl
  | cons args l ih =>
    match m with
    | 0 => rfl
    | 1 => rfl
    | m + 2 =>
      rw [List.flatMap_cons]
      show (l.flatMap fun args => [args.transferCommand,args.flushCommand])[m]? = _
      have hkind : FlushKind.nth (m + 2) = FlushKind.nth m := by
        unfold FlushKind.nth
        rw [Nat.add_mod_right]
      rw [ih,hkind,Nat.add_div_right m (by decide),List.getElem?_cons_succ]

/-- In every run the device has executed just the commands published so far, in their order,
exactly if every entry was intact when the device came to it. -/
theorem flushSystem_inOrder_iff {build : Profile} {s : FlushState}
    (h : (flushSystem build).Reachable s) :
    s.executed <+: s.host.commands.map some ↔ ∀ intact ∈ s.intact, intact = true := by
  obtain ⟨f₀,rest,p,n,hinv⟩ := FlushState.Inv.reachable h
  have hcommand : ∀ m < s.executed.length, (s.host.commands.map some)[m]? =
      some ((s.host.calls[m / 2]?).map (FlushKind.nth m).command) := by
    intro m hm
    have hexecuted := hinv.executed_le
    have hpublished := hinv.host.counts.published
    have hcalls := hinv.host.counts.calls
    have hlt : m / 2 < s.host.calls.length := by split_ifs at hpublished hcalls <;> omega
    rw [FlushCalls.commands,List.getElem?_map,FlushCalls.commands_getElem?,
      List.getElem?_take_of_lt (by omega),List.getElem?_eq_getElem hlt]
    rfl
  refine Runs.prefix_iff_verdicts hinv.length fun m hm => ?_
  rw [hcommand m hm]
  exact hinv.verdict m hm

namespace FlushState

/-- One action, if it can be taken. -/
def exec (build : Profile) (s : FlushState) : FlushAction → Option FlushState
  | .call args =>
    match s.host.step build args with
    | .ok host =>
      if (host.driver.queue.available.idx - s.seen).toNat ≤ 64 then some {s with host} else none
    | .error _ => none
  | .process => if s.seen ≠ s.host.driver.queue.available.idx then some s.process else none

theorem exec_step {build : Profile} {s t : FlushState} {a : FlushAction}
    (h : s.exec build a = some t) : FlushStep build s a t := by
  cases a with
  | call args =>
    simp only [exec] at h
    split at h
    · rename_i host hhost
      split at h
      · rename_i hroom
        cases Option.some.inj h
        exact .call hhost hroom
      · cases h
    · cases h
  | process =>
    simp only [exec] at h
    split at h
    · rename_i hseen
      cases Option.some.inj h
      exact .process hseen
    · cases h

/-- A new queue after a schedule, and untouched if the schedule gets stuck. -/
def after (schedule : List FlushAction) : FlushState :=
  (schedule.foldlM (exec .dev) (start GpuRun.start.driver)).getD (start GpuRun.start.driver)

theorem after_reachable (schedule : List FlushAction) :
    (flushSystem .dev).Reachable (after schedule) := by
  have hstart : (flushSystem .dev).Reachable (start GpuRun.start.driver) :=
    .init ⟨_,_,_,.new,by rw [List.length_finRange]; decide,.new,rfl⟩
  unfold after
  cases h : schedule.foldlM (exec .dev) (start GpuRun.start.driver) with
  | none => exact hstart
  | some t => exact hstart.foldlM (fun _ _ _ _ hstep => exec_step hstep) h

end FlushState

/-- A flush is six effects. -/
def flushActions (args : FlushArgs) : List FlushAction := List.replicate 6 (.call args)

/-- The device is done before the next flush. -/
theorem promptDevice_inOrder :
    let s := FlushState.after (flushActions ⟨1,800,600⟩ ++ [.process,.process] ++
      flushActions ⟨1,1024,768⟩ ++ [.process,.process])
    s.executed.length = 4 ∧ s.executed <+: s.host.commands.map some :=
  ⟨by decide,(flushSystem_inOrder_iff (FlushState.after_reachable _)).mpr (by decide)⟩

/-- Two flushes with the same arguments before the device looks: what was published as a
transfer is executed as a flush. -/
theorem slowDevice_outOfOrder : ¬∀ build s, (flushSystem build).Reachable s →
    s.executed <+: s.host.commands.map some := by
  intro h
  have hpre := h .dev _ (FlushState.after_reachable
    (flushActions ⟨1,800,600⟩ ++ flushActions ⟨1,800,600⟩ ++ [.process]))
  exact absurd hpre (by decide)

end PolymorphOS
