import PolymorphOS.MfsGate
import PolymorphOS.RustText

/-! The names under which received payloads are saved: the counter goes up until the table has no
file of that name. -/
namespace PolymorphOS

namespace RustStr

theorem length_splitOn_le (sep : Char) (s : List Char) : (s.splitOn sep).length ≤ s.length + 1 := by
  induction s with
  | nil => simp
  | cons c s ih =>
    rw [List.splitOn_cons_eq_if_modifyHead]
    split
    · rw [List.length_cons,List.length_cons]
      omega
    · rw [List.length_modifyHead,List.length_cons]
      omega

theorem length_lines_le (s : List Char) : (lines s).length ≤ s.length + 1 := by
  refine le_trans ?_ (length_splitOn_le '\n' s)
  have hpos : 0 < (s.splitOn '\n').length :=
    List.length_pos_of_ne_nil (List.splitOn_ne_nil '\n' s)
  rw [lines,List.length_append,List.length_map,List.length_dropLast]
  split
  · rw [List.length_nil]
    omega
  · rw [List.length_singleton]
    omega

end RustStr

namespace Mfs

open Kernel RustStr

/-- `format!("payload_{}.mdo", payload_count)`. -/
def payloadName (payloadCount : Int32) : List Char :=
  "payload_".toList ++ (formatI32 payloadCount ++ ".mdo".toList)

/-- Enough for every table of 4096 bytes. -/
def maxProbes : ℕ := 4098

/-- The loop around `find_file`, and none if so many probes are not enough. -/
def searchName (build : Profile) : ℕ → Int32 → Kernel (Option Int32)
  | 0, _ => pure none
  | n+1, payloadCount => do
    match ← findFile (payloadName payloadCount) with
    | none => pure (some payloadCount)
    | some _ =>
      let payloadCount ← ofPanic (succI32 build payloadCount)
      searchName build n payloadCount

theorem length_mftText_le (b : Block) : (mftText b).length ≤ 4096 := by
  refine (List.takeWhile_prefix _).length_le.trans ?_
  cases h : Utf8.decode b.1 with
  | none => exact Nat.zero_le _
  | some s =>
    have hlen := Utf8.encode_length_ge s
    rw [Utf8.encode_of_decode h,b.2] at hlen
    exact hlen

theorem payloadName_eq (n : Int32) : payloadName n =
    ['p','a','y','l','o','a','d','_'] ++ (formatI32 n ++ ['.','m','d','o']) := by
  have hstem : "payload_".toList = ['p','a','y','l','o','a','d','_'] := by simp
  have hsuffix : ".mdo".toList = ['.','m','d','o'] := by simp
  unfold payloadName
  rw [hstem,hsuffix]

/-- The names differ even where the table is read generously. -/
theorem trim_payloadName (n : Int32) : trim (payloadName n) = payloadName n := by
  have hp : ¬isWhitespace 'p' = true := by decide
  have ho : ¬isWhitespace 'o' = true := by decide
  have hlast : payloadName n =
      'p' :: ((['a','y','l','o','a','d','_'] ++ (formatI32 n ++ ['.','m','d'])) ++ ['o']) := by
    simp only [payloadName_eq,List.cons_append,List.nil_append,List.append_assoc]
  rw [trim,hlast,List.dropWhile_cons_of_neg hp,← List.cons_append]
  exact List.rdropWhile_concat_neg _ _ _ ho

theorem map_toLower_formatI32 (n : Int32) : (formatI32 n).map Char.toLower = formatI32 n := by
  have hdigits : ∀ m, (Nat.toDigits 10 m).map Char.toLower = Nat.toDigits 10 m := by
    intro m
    exact (List.map_congr_left fun c hc => toLower_of_isDigit (isDigit_toDigits hc)).trans
      (List.map_id _)
  unfold formatI32
  split
  · rw [List.map_cons,hdigits]
    rfl
  · exact hdigits _

theorem payloadName_of_same {m n : Int32} {name : List Char}
    (hm : eqIgnoreAsciiCase (trim name) (trim (payloadName m)) = true)
    (hn : eqIgnoreAsciiCase (trim name) (trim (payloadName n)) = true) : m = n := by
  have hlower : ∀ k, (payloadName k).map Char.toLower = payloadName k := by
    intro k
    rw [payloadName_eq,List.map_append,List.map_append,map_toLower_formatI32]
    rfl
  have heq := (beq_iff_eq.mp hm).symm.trans (beq_iff_eq.mp hn)
  rw [trim_payloadName,trim_payloadName,hlower,hlower,payloadName_eq,payloadName_eq] at heq
  exact formatI32_injective (List.append_cancel_right (List.append_cancel_left heq))

/-- The drive after so many probes. -/
def probed (s : Option NvmeController) (n : ℕ) : Option NvmeController :=
  s.map fun d => {d with log := d.log ++ List.replicate n (.read 0)}

/-- The `n`-th probe from here on finds the name. -/
def Taken (s : Option NvmeController) (n : ℕ) (name : List Char) : Prop :=
  ∃ d, s = some d ∧ d.Succeeds (d.log.length + n) ∧ (lookup (d.blocks 0) name).isSome

/-- The counter would have to go beyond its largest value, which only a debug build notices. -/
def Exhausted (build : Profile) (s : Option NvmeController) (payloadCount : Int32) : Prop :=
  build = .dev ∧ ∃ k, payloadCount + .ofNat k = Int32.maxValue ∧
    ∀ i ≤ k, Taken s i (payloadName (payloadCount + .ofNat i))

variable {build : Profile} {s : Option NvmeController} {payloadCount : Int32} {n k : ℕ}

theorem findFile_probe (s : Option NvmeController) (name : List Char) :
    ∃ r, findFile name s = .ok r (probed s 1) ∧ (r.isSome ↔ Taken s 0 name) := by
  cases s with
  | none => exact ⟨none,rfl,iff_of_false Bool.false_ne_true fun ⟨_,h,_⟩ => nomatch h⟩
  | some d =>
    by_cases hs : d.Succeeds d.log.length
    · refine ⟨lookup (d.blocks 0) name,findFile_ok name hs,fun h => ⟨d,rfl,hs,h⟩,?_⟩
      rintro ⟨_,⟨⟩,_,h⟩
      exact h
    · refine ⟨none,?_,iff_of_false Bool.false_ne_true ?_⟩
      · rw [findFile,d.readBlock_eq,if_neg hs]
        rfl
      · rintro ⟨_,⟨⟩,h,_⟩
        exact hs h

theorem probed_zero (s : Option NvmeController) : probed s 0 = s := by
  cases s with
  | none => rfl
  | some d =>
    simp only [probed,Option.map_some,List.replicate_zero,List.append_nil]

theorem probed_probed (s : Option NvmeController) (j k : ℕ) :
    probed (probed s j) k = probed s (j + k) := by
  cases s with
  | none => rfl
  | some d =>
    simp only [probed,Option.map_some,List.append_assoc,List.replicate_append_replicate]

theorem taken_probed {name : List Char} : Taken (probed s k) n name ↔ Taken s (k + n) name := by
  cases s with
  | none => exact iff_of_false (fun ⟨_,h,_⟩ => nomatch h) fun ⟨_,h,_⟩ => nomatch h
  | some d =>
    have hlen : (d.log ++ List.replicate k (IoCmd.read 0)).length + n = d.log.length + (k + n) := by
      rw [List.length_append,List.length_replicate,Nat.add_assoc]
    constructor
    · rintro ⟨_,⟨⟩,hs,h⟩
      refine ⟨d,rfl,?_,h⟩
      rw [← hlen]
      exact hs
    · rintro ⟨_,⟨⟩,hs,h⟩
      refine ⟨_,rfl,?_,h⟩
      show d.Succeeds ((d.log ++ List.replicate k (IoCmd.read 0)).length + n)
      rw [hlen]
      exact hs

theorem add_ofNat_succ (c : Int32) (n : ℕ) : c + 1 + .ofNat n = c + .ofNat (n + 1) := by
  rw [Nat.add_comm n 1,Int32.ofNat_add,Int32.add_assoc]
  rfl

theorem add_ofNat_inj {c : Int32} {m n : ℕ} (hm : m < 2^31) (hn : n < 2^31)
    (h : c + .ofNat m = c + .ofNat n) : m = n := by
  have hint := congrArg Int32.toInt ((Int32.add_right_inj c).mp h)
  rw [Int32.toInt_ofNat_of_lt hm,Int32.toInt_ofNat_of_lt hn] at hint
  exact Int.ofNat_inj.mp hint

/-- One probe that finds the name. -/
theorem searchName_taken (h : Taken s 0 (payloadName payloadCount)) :
    searchName build (n + 1) payloadCount s = (ofPanic (succI32 build payloadCount) >>=
      fun payloadCount => searchName build n payloadCount) (probed s 1) := by
  obtain ⟨r,hr,hiff⟩ := findFile_probe s (payloadName payloadCount)
  obtain ⟨e,rfl⟩ := Option.isSome_iff_exists.mp (hiff.mpr h)
  rw [searchName,bind_ok hr]

theorem searchName_free (h : ¬Taken s 0 (payloadName payloadCount)) :
    searchName build (n + 1) payloadCount s = .ok (some payloadCount) (probed s 1) := by
  obtain ⟨r,hr,hiff⟩ := findFile_probe s (payloadName payloadCount)
  obtain rfl := Option.not_isSome_iff_eq_none.mp (hiff.not.mpr h)
  rw [searchName,bind_ok hr]
  rfl

/-- The lines of the table behind the first. -/
def tableLines (mftBuffer : Block) : List (List Char) := (lines (mftText mftBuffer)).drop 1

/-- A valid line of the table names this payload, up to the blanks around it and ASCII case. -/
def Named (mftBuffer : Block) (payloadCount : Int32) : Prop :=
  ∃ entry ∈ looseEntries mftBuffer, sameName entry.name (payloadName payloadCount) = true

theorem isSome_lookup {b : Block} : (lookup b (payloadName payloadCount)).isSome ↔
    Named b payloadCount := by
  rw [lookup_eq_find?,List.find?_isSome]
  rfl

theorem length_looseEntries_le (b : Block) :
    (looseEntries b).length ≤ (tableLines b).length ∧ (tableLines b).length < maxProbes := by
  have hlines := length_lines_le (mftText b)
  have htext := length_mftText_le b
  refine ⟨List.length_filterMap_le _ _,?_⟩
  rw [tableLines,List.length_drop,maxProbes]
  omega

/-- A table has no more names than lines. -/
theorem exists_unnamed (b : Block) (payloadCount : Int32) :
    ∃ k ≤ (tableLines b).length, ¬Named b (payloadCount + .ofNat k) := by
  obtain ⟨hle,hlt⟩ := length_looseEntries_le b
  by_contra hall
  push Not at hall
  -- the entry that has the name
  have hfound : ∀ k : Fin ((tableLines b).length + 1), ∃ i : Fin (looseEntries b).length,
      sameName ((looseEntries b).get i).name (payloadName (payloadCount + .ofNat k)) = true := by
    rintro ⟨k,hk⟩
    obtain ⟨e,he,hname⟩ := hall k (Nat.le_of_lt_succ hk)
    obtain ⟨i,hi⟩ := List.get_of_mem he
    exact ⟨i,by rw [hi]; exact hname⟩
  choose entry hname using hfound
  obtain ⟨j,k,hne,hsame⟩ := Fintype.exists_ne_map_eq_of_card_lt entry
    (by rw [Fintype.card_fin,Fintype.card_fin]; exact Nat.lt_succ_of_le hle)
  have hbound : ∀ k : Fin ((tableLines b).length + 1), k.val < 2^31 := fun k =>
    (Nat.lt_succ_iff.mp k.2).trans_lt (hlt.trans (by decide))
  have hcount := payloadName_of_same (hname j) (hsame ▸ hname k)
  exact hne (Fin.ext (add_ofNat_inj (hbound j) (hbound k) hcount))

/-- A table has fewer names than there are probes. -/
theorem exists_free (s : Option NvmeController) (payloadCount : Int32) :
    ∃ k < maxProbes, ¬Taken s k (payloadName (payloadCount + .ofNat k)) := by
  cases s with
  | none => exact ⟨0,by decide,fun ⟨_,h,_⟩ => nomatch h⟩
  | some d =>
    obtain ⟨k,hk,hfree⟩ := exists_unnamed (d.blocks 0) payloadCount
    refine ⟨k,hk.trans_lt (length_looseEntries_le _).2,?_⟩
    rintro ⟨_,⟨⟩,_,h⟩
    exact hfree (isSome_lookup.mp h)

/-- The search passes over names that are taken. -/
theorem searchName_skip (htaken : ∀ i < k, Taken s i (payloadName (payloadCount + .ofNat i)))
    (hroom : ∀ i < k, payloadCount + .ofNat i ≠ Int32.maxValue ∨ build = .release) :
    searchName build (k + n) payloadCount s =
      searchName build n (payloadCount + .ofNat k) (probed s k) := by
  have hzero : ∀ c : Int32, c + .ofNat 0 = c := Int32.add_zero
  induction k generalizing s payloadCount with
  | zero => rw [Nat.zero_add,hzero,probed_zero]
  | succ k ih =>
    have hfirst := htaken 0 (Nat.succ_pos k)
    have hsucc := hroom 0 (Nat.succ_pos k)
    rw [hzero] at hfirst hsucc
    have hnext : searchName build (k + n) (payloadCount + 1) (probed s 1) = _ := ih
      (fun i hi => by
        rw [taken_probed,add_ofNat_succ,Nat.add_comm]
        exact htaken (i + 1) (Nat.succ_lt_succ hi))
      (fun i hi => by
        rw [add_ofNat_succ]
        exact hroom (i + 1) (Nat.succ_lt_succ hi))
    rw [Nat.add_right_comm,searchName_taken hfirst,succI32,if_pos hsucc,bind_ok (ofPanic_ok _ _),hnext,
      add_ofNat_succ,probed_probed,Nat.add_comm 1 k]

/-- The search finds the first name that is free. -/
theorem searchName_ok (hk : k < n) (hfree : ¬Taken s k (payloadName (payloadCount + .ofNat k)))
    (htaken : ∀ i < k, Taken s i (payloadName (payloadCount + .ofNat i)))
    (hroom : ∀ i < k, payloadCount + .ofNat i ≠ Int32.maxValue ∨ build = .release) :
    searchName build n payloadCount s = .ok (some (payloadCount + .ofNat k)) (probed s (k + 1)) := by
  obtain ⟨m,rfl⟩ := Nat.exists_eq_add_of_lt hk
  have hprobe : ¬Taken (probed s k) 0 (payloadName (payloadCount + .ofNat k)) :=
    mt taken_probed.mp hfree
  rw [Nat.add_assoc,searchName_skip htaken hroom,searchName_free hprobe,probed_probed]

theorem searchName_overflow (hk : k < n) (hmax : payloadCount + .ofNat k = Int32.maxValue)
    (htaken : ∀ i ≤ k, Taken s i (payloadName (payloadCount + .ofNat i)))
    (hroom : ∀ i < k, payloadCount + .ofNat i ≠ Int32.maxValue) :
    searchName .dev n payloadCount s = .error (.panic .overflow) (probed s (k + 1)) := by
  obtain ⟨m,rfl⟩ := Nat.exists_eq_add_of_lt hk
  have hprobe : Taken (probed s k) 0 (payloadName (payloadCount + .ofNat k)) :=
    taken_probed.mpr (htaken k le_rfl)
  rw [Nat.add_assoc,searchName_skip (fun i hi => htaken i (Nat.le_of_lt hi))
    (fun i hi => .inl (hroom i hi)),searchName_taken hprobe,hmax,probed_probed]
  rfl

/-- The search always ends: with a free name, or with a counter that overflows. -/
theorem searchName_total (build : Profile) (s : Option NvmeController) (payloadCount : Int32) :
    (¬Exhausted build s payloadCount ∧ ∃ count k,
      searchName build maxProbes payloadCount s = .ok (some count) (probed s k)) ∨
    (Exhausted build s payloadCount ∧ ∃ k,
      searchName build maxProbes payloadCount s = .error (.panic .overflow) (probed s k)) := by
  classical
  have hexists := exists_free s payloadCount
  let k := Nat.find hexists
  obtain ⟨hk,hfree⟩ := Nat.find_spec hexists
  have htaken : ∀ i < k, Taken s i (payloadName (payloadCount + .ofNat i)) := by
    intro i hi
    by_contra hnot
    exact Nat.find_min hexists hi ⟨hi.trans hk,hnot⟩
  by_cases hroom : ∀ i < k, payloadCount + .ofNat i ≠ Int32.maxValue ∨ build = .release
  · refine .inl ⟨?_,_,_,searchName_ok hk hfree htaken hroom⟩
    rintro ⟨rfl,j,hj,hall⟩
    have hlt : j < k := lt_of_not_ge fun hge => hfree (hall k hge)
    exact (hroom j hlt).elim (fun hne => hne hj) fun h => nomatch h
  · push Not at hroom
    obtain ⟨i,hi,hmax,hbuild⟩ := hroom
    have hdev : build = .dev := by
      cases build with
      | dev => rfl
      | release => exact absurd rfl hbuild
    subst hdev
    have hfirst : ∃ j, payloadCount + .ofNat j = Int32.maxValue := ⟨i,hmax⟩
    have hle : Nat.find hfirst ≤ i := Nat.find_min' hfirst hmax
    have hall : ∀ j ≤ Nat.find hfirst, Taken s j (payloadName (payloadCount + .ofNat j)) :=
      fun j hj => htaken j ((hj.trans hle).trans_lt hi)
    exact .inr ⟨⟨rfl,_,Nat.find_spec hfirst,hall⟩,_,searchName_overflow
      ((hle.trans_lt hi).trans hk) (Nat.find_spec hfirst) hall fun j hj => Nat.find_min hfirst hj⟩

end Mfs
end PolymorphOS
