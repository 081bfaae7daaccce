import Mathlib.Tactic

/-! What the kernel's functions share as Rust code: panics, fallible calls, and
`u64` arithmetic under the two build profiles. -/
namespace PolymorphOS

/-- A panic; the handler halts the processor, so nothing runs after it. -/
inductive Panic
  | indexOutOfBounds
  | overflow
  | explicit (message : String)
  deriving DecidableEq

/-- `run.sh` boots a debug build and the README a release build; only the former
checks integer arithmetic. -/
inductive Profile
  | dev | release
  deriving DecidableEq

/-- Why a call did not return its value: a Rust `Err`, or a panic. -/
inductive Fault
  | err (message : String)
  | panic (cause : Panic)
  deriving DecidableEq

/-- `a + b` on `u64`. -/
def addU64 (build : Profile) (a b : UInt64) : Except Panic UInt64 :=
  if a.toNat + b.toNat < 2^64 ∨ build = .release then .ok (a + b) else .error .overflow

/-- `a - b` on `u64`. -/
def subU64 (build : Profile) (a b : UInt64) : Except Panic UInt64 :=
  if b ≤ a ∨ build = .release then .ok (a - b) else .error .overflow

/-- `a * b` on `u64`. -/
def mulU64 (build : Profile) (a b : UInt64) : Except Panic UInt64 :=
  if a.toNat * b.toNat < 2^64 ∨ build = .release then .ok (a * b) else .error .overflow

/-- `a + b` on `u16`. -/
def addU16 (build : Profile) (a b : UInt16) : Except Panic UInt16 :=
  if a.toNat + b.toNat < 2^16 ∨ build = .release then .ok (a + b) else .error .overflow

/-- `a - b` on `u16`. -/
def subU16 (build : Profile) (a b : UInt16) : Except Panic UInt16 :=
  if b ≤ a ∨ build = .release then .ok (a - b) else .error .overflow

/-- `a + b` on `u8`. -/
def addU8 (build : Profile) (a b : UInt8) : Except Panic UInt8 :=
  if a.toNat + b.toNat < 2^8 ∨ build = .release then .ok (a + b) else .error .overflow

/-- `a * b` on `u8`. -/
def mulU8 (build : Profile) (a b : UInt8) : Except Panic UInt8 :=
  if a.toNat * b.toNat < 2^8 ∨ build = .release then .ok (a * b) else .error .overflow

theorem addU64_ok {a b : UInt64} (build : Profile) (h : a.toNat + b.toNat < 2^64) :
    addU64 build a b = .ok (a + b) := if_pos (Or.inl h)

theorem addU64_iff {build : Profile} {a b c : UInt64} : addU64 build a b = .ok c ↔
    (a.toNat + b.toNat < 2^64 ∨ build = .release) ∧ c = a + b := by
  by_cases h : a.toNat + b.toNat < 2^64 ∨ build = .release
  · rw [addU64,if_pos h]
    exact ⟨fun he => ⟨h,(Except.ok.inj he).symm⟩,fun he => by rw [he.2]⟩
  · rw [addU64,if_neg h]
    exact iff_of_false (fun he => nomatch he) fun he => h he.1

theorem mulU64_iff {build : Profile} {a b c : UInt64} : mulU64 build a b = .ok c ↔
    (a.toNat * b.toNat < 2^64 ∨ build = .release) ∧ c = a * b := by
  by_cases h : a.toNat * b.toNat < 2^64 ∨ build = .release
  · rw [mulU64,if_pos h]
    exact ⟨fun he => ⟨h,(Except.ok.inj he).symm⟩,fun he => by rw [he.2]⟩
  · rw [mulU64,if_neg h]
    exact iff_of_false (fun he => nomatch he) fun he => h he.1

theorem addU16_ok {a b : UInt16} (build : Profile) (h : a.toNat + b.toNat < 2^16) :
    addU16 build a b = .ok (a + b) := if_pos (Or.inl h)

theorem subU16_ok {a b : UInt16} (build : Profile) (h : b ≤ a) :
    subU16 build a b = .ok (a - b) := if_pos (Or.inl h)

theorem addU16_inv {build : Profile} {a b c : UInt16} (h : addU16 build a b = .ok c) :
    c = a + b := by
  unfold addU16 at h
  split at h
  · exact (Except.ok.inj h).symm
  · cases h

theorem subU16_inv {build : Profile} {a b c : UInt16} (h : subU16 build a b = .ok c) :
    c = a - b ∧ (b ≤ a ∨ build = .release) := by
  unfold subU16 at h
  split at h
  · rename_i hle
    exact ⟨(Except.ok.inj h).symm,hle⟩
  · cases h

/-- A byte slice; no object is larger than `isize::MAX` bytes. -/
@[ext]
structure Slice where
  bytes : List UInt8
  length_lt : bytes.length < 2^63

end PolymorphOS
