import PolymorphOS.NvmeBlocks

/-! The block interface that the file system is built on is what the driver's calls come to over the
queues, if a command that fails leaves its logical block as it was. -/
namespace PolymorphOS

namespace NvmeController

/-- A call through the block interface. -/
def serve (d : NvmeController) : BlockRequest → BlockResult × NvmeController
  | .write lba data =>
    let r := d.writeBlock lba data
    (r.1.map fun _ => [],r.2)
  | .read lba =>
    let r := d.readBlock lba
    (r.1.map Subtype.val,r.2)

end NvmeController

/-- The block interface, as a system of its own. -/
def interfaceSystem : Runs.System NvmeController (BlockRequest × BlockResult) where
  init _ := True
  step d x d' := d.serve x.1 = (x.2,d')

namespace NvmeController

variable {d : NvmeController} {r : BlockRequest}

theorem serve_write_long {lba : UInt64} {data : List UInt8} (h : 4096 < data.length) :
    d.serve (.write lba data) = (.error 0xFFFF,d) := by
  simp only [serve,writeBlock,if_pos h]
  rfl

theorem serve_write_ok {lba : UInt64} {data : List UInt8} (hd : data.length ≤ 4096)
    (h : d.Succeeds d.log.length) :
    d.serve (.write lba data) = (.ok [],d.written lba (.ofData data)) := by
  simp only [serve,writeBlock_ok lba hd h]
  rfl

theorem serve_write_error {lba : UInt64} {data : List UInt8} (hd : data.length ≤ 4096)
    (h : ¬d.Succeeds d.log.length) : d.serve (.write lba data) =
      (.error (d.status d.log.length),d.issued (.write lba (.ofData data))) := by
  simp only [serve,writeBlock_error lba hd h]
  rfl

theorem serve_frame (d : NvmeController) (r : BlockRequest) :
    (d.serve r).2.status = d.status ∧ d.log.length ≤ (d.serve r).2.log.length := by
  cases r with
  | write lba data =>
    by_cases hlong : 4096 < data.length
    · rw [serve_write_long hlong]
      exact ⟨rfl,le_rfl⟩
    · have hd := not_lt.mp hlong
      by_cases hs : d.Succeeds d.log.length
      · rw [serve_write_ok hd hs]
        exact ⟨rfl,by simp⟩
      · rw [serve_write_error hd hs]
        exact ⟨rfl,by simp⟩
  | read lba =>
    simp only [serve,readBlock_eq]
    exact ⟨rfl,by simp⟩

/-- A call depends on no status but those of the commands that it has issued. -/
theorem serve_status (d : NvmeController) (r : BlockRequest) {status : ℕ → UInt16}
    (h : ∀ n < (d.serve r).2.log.length, status n = d.status n) :
    ({d with status} : NvmeController).serve r = ((d.serve r).1,{(d.serve r).2 with status}) := by
  have hsucceeds (hlast : status d.log.length = d.status d.log.length) :
      ({d with status} : NvmeController).Succeeds d.log.length ↔ d.Succeeds d.log.length :=
    iff_of_eq (congrArg (fun v : UInt16 => v >>> 1 = 0) hlast)
  cases r with
  | write lba data =>
    by_cases hlong : 4096 < data.length
    · rw [serve_write_long hlong,serve_write_long hlong]
    · have hd := not_lt.mp hlong
      by_cases hs : d.Succeeds d.log.length
      · rw [serve_write_ok hd hs] at h ⊢
        have hlast := h d.log.length (by simp)
        rw [serve_write_ok hd ((hsucceeds hlast).mpr hs)]
        rfl
      · rw [serve_write_error hd hs] at h ⊢
        have hlast := h d.log.length (by simp)
        rw [serve_write_error hd (mt (hsucceeds hlast).mp hs),← hlast]
        rfl
  | read lba =>
    simp only [serve,readBlock_eq] at h ⊢
    have hlast := h d.log.length (by simp)
    simp only [hsucceeds hlast,hlast]
    rfl

end NvmeController

namespace DmaState

variable {s : DmaState} {attempt : Attempt} {buf : UInt64} {d : NvmeController} {r : BlockRequest}

theorem blocks_congr {t : DmaState} (h : s.storage = t.storage) : s.blocks = t.blocks := by
  funext lba
  apply Subtype.ext
  rw [blocks_val,blocks_val,content,content,h]

/-- A call that is served at once is one through the block interface. -/
theorem serve_blocks (hblocks : d.blocks = s.blocks) (hstatus : attempt.status = d.status d.log.length)
    (hkept : attempt.status >>> 1 ≠ 0 → (s.serve 4096 attempt buf r).2.storage = s.storage) :
    (d.serve r).1 = (s.serve 4096 attempt buf r).1 ∧
      (d.serve r).2.blocks = (s.serve 4096 attempt buf r).2.blocks := by
  cases r with
  | write lba data =>
    by_cases hlong : 4096 < data.length
    · rw [NvmeController.serve_write_long hlong]
      simp only [serve,writeBlock,if_pos hlong]
      exact ⟨rfl,hblocks⟩
    · have hd := not_lt.mp hlong
      by_cases hok : d.Succeeds d.log.length
      · have hwrite : (s.writeBlock 4096 attempt buf lba data).1 = (d.writeBlock lba data).1 ∧
            (s.writeBlock 4096 attempt buf lba data).2.blocks = (d.writeBlock lba data).2.blocks :=
          writeBlock_blocks hblocks hstatus hok hd
        exact ⟨congrArg (Except.map fun _ => []) hwrite.1.symm,hwrite.2.symm⟩
      · have hfail : ¬attempt.status >>> 1 = 0 := by
          rw [hstatus]
          exact hok
        have hsame : (s.serve 4096 attempt buf (.write lba data)).2.blocks = s.blocks :=
          blocks_congr (hkept hfail)
        rw [NvmeController.serve_write_error hd hok,hsame]
        refine ⟨?_,hblocks⟩
        rw [serve]
        simp only [writeBlock_result hd,if_neg hfail]
        exact congrArg Except.error hstatus.symm
  | read lba =>
    have hread : (s.readBlock 4096 attempt buf lba).1 = (d.readBlock lba).1.map Subtype.val :=
      readBlock_blocks hblocks hstatus
    refine ⟨hread.symm,?_⟩
    have hstorage : (s.serve 4096 attempt buf (.read lba)).2.blocks = s.blocks :=
      blocks_congr (readBlock_storage 4096 attempt buf lba s)
    rw [hstorage]
    simp only [NvmeController.serve,NvmeController.readBlock_eq]
    exact hblocks

end DmaState

/-- Calls served at once are calls through the block interface, with the statuses that the device
made up on the way. -/
theorem exists_interface_trace {buf : UInt64} {storage storage' : ℕ → UInt8}
    {l : List (BlockRequest × BlockResult)}
    (h : (blockSystem 4096 buf true).Trace storage l storage') (memory : ℕ → UInt8)
    {d : NvmeController} (hblocks : d.blocks = DmaState.blocks ⟨storage,memory⟩) :
    ∃ status d', (∀ n < d.log.length, status n = d.status n) ∧
      interfaceSystem.Trace {d with status} l d' ∧
      d'.blocks = DmaState.blocks ⟨storage',memory⟩ := by
  induction h generalizing d with
  | nil => exact ⟨d.status,d,fun _ _ => rfl,.nil,hblocks⟩
  | @cons storage storage₁ storage' x l hstep _ ih =>
    obtain ⟨attempt,memory₀,dma,hserve,hstorage,hkept⟩ := hstep
    let d₀ : NvmeController :=
      {d with status := Function.update d.status d.log.length attempt.status}
    have hstatus : attempt.status = d₀.status d₀.log.length := by
      show attempt.status = Function.update d.status d.log.length attempt.status d.log.length
      rw [Function.update_self]
    have hblocks₀ : d₀.blocks = DmaState.blocks ⟨storage,memory₀⟩ :=
      hblocks.trans (DmaState.blocks_congr rfl)
    have hserved : (d₀.serve x.1).1 = (DmaState.serve 4096 attempt buf ⟨storage,memory₀⟩ x.1).1 ∧
        (d₀.serve x.1).2.blocks =
          (DmaState.serve 4096 attempt buf ⟨storage,memory₀⟩ x.1).2.blocks := by
      refine DmaState.serve_blocks hblocks₀ hstatus fun hfail => ?_
      rw [hserve]
      exact hstorage.trans (hkept rfl hfail)
    rw [hserve] at hserved
    obtain ⟨hresult,hafter⟩ := hserved
    obtain ⟨hsame,hlog⟩ := d₀.serve_frame x.1
    obtain ⟨status,d',hagree,htrace,hblocks'⟩ := ih (hafter.trans (DmaState.blocks_congr hstorage))
    have hagree₀ (n : ℕ) (hn : n < (d₀.serve x.1).2.log.length) : status n = d₀.status n :=
      (hagree n hn).trans (congrFun hsame n)
    refine ⟨status,d',fun n hn => ?_,.cons ?_ htrace,hblocks'⟩
    · exact (hagree₀ n (hn.trans_le hlog)).trans (Function.update_of_ne hn.ne _ _)
    · exact (d₀.serve_status x.1 hagree₀).trans (Prod.ext hresult rfl)

/-- In every interleaving of the driver with a conformant device that leaves a logical block as it was
if a command fails, the block calls are those of the block interface, for some statuses. -/
theorem queues_refine_interface {buf : UInt64} {addrs : DmaAddrs} {dma : DmaState} {s : DriveState}
    (h : (driveSystem 4096 buf addrs true dma.storage).Reachable s) (hpending : s.pending = none) :
    ∃ status d, interfaceSystem.Trace ⟨dma.blocks,status,[]⟩ s.finished d ∧
      d.blocks = s.dma.blocks := by
  obtain ⟨storage,htrace,hinv⟩ := DriveState.finished_trace le_rfl h
  let d : NvmeController := ⟨dma.blocks,fun _ => 0,[]⟩
  have hblocks : d.blocks = DmaState.blocks ⟨dma.storage,dma.memory⟩ := rfl
  obtain ⟨status,d',_,htrace',hblocks'⟩ := exists_interface_trace htrace dma.memory hblocks
  refine ⟨status,d',htrace',hblocks'.trans (DmaState.blocks_congr ?_)⟩
  exact ((hinv.idle hpending).2).symm

/-- A first write. -/
theorem queues_refine_interface_first : ∃ s result status d,
    (driveSystem 4096 0x1000 ⟨0x2000,0x3000,0x4000⟩ true fun _ => 0).Reachable s ∧
    s.finished = [(.write 5 [1,2,3],result)] ∧
    interfaceSystem.Trace ⟨DmaState.blocks ⟨fun _ => 0,fun _ => 0⟩,status,[]⟩ s.finished d ∧
    d.blocks = s.dma.blocks := by
  let dma : DmaState := ⟨fun _ => 0,fun _ => 0⟩
  obtain ⟨queues,hup,_,hstage⟩ :=
    DriveState.exists_up 4096 0x1000 ⟨0x2000,0x3000,0x4000⟩ true dma le_rfl
  have hfits : (BlockRequest.write 5 [1,2,3]).sent.length ≤ 4096 := by decide
  have hbegin := hup.step (.fill hstage rfl hfits)
  obtain ⟨_,_,hinv⟩ := DriveState.finished_trace le_rfl hbegin
  obtain ⟨s,result,hrun,hpending,hfinished⟩ := hinv.returns le_rfl dma.storage rfl
  have hs := hbegin.run hrun
  obtain ⟨status,d,htrace,hblocks⟩ := queues_refine_interface hs hpending
  exact ⟨s,result,status,d,hs,hfinished,htrace,hblocks⟩

end PolymorphOS
