import PolymorphOS.Utf8
import Mathlib.Data.List.DropRight
import Mathlib.Tactic

/-! The `str` methods of the Rust standard library, over lists of characters:
line splitting, trimming, ASCII case folding, and decimal `u64` text. -/
namespace PolymorphOS
namespace RustStr

/-- `char::is_whitespace`: the Unicode property `White_Space`. -/
def isWhitespace (c : Char) : Bool :=
  (0x09 ≤ c.toNat && c.toNat ≤ 0x0D) || c.toNat == 0x20 || c.toNat == 0x85 || c.toNat == 0xA0 ||
  c.toNat == 0x1680 || (0x2000 ≤ c.toNat && c.toNat ≤ 0x200A) || c.toNat == 0x2028 ||
  c.toNat == 0x2029 || c.toNat == 0x202F || c.toNat == 0x205F || c.toNat == 0x3000

/-- `str::trim`. -/
def trim (s : List Char) : List Char := (s.dropWhile isWhitespace).rdropWhile isWhitespace

/-- `str::eq_ignore_ascii_case`. -/
def eqIgnoreAsciiCase (s t : List Char) : Bool := s.map Char.toLower == t.map Char.toLower

def stripCr (line : List Char) : List Char :=
  if line.getLast? = some '\r' then line.dropLast else line

/-- `str::lines`: a line ends at `\n` or `\r\n`, and the ending of the last line is optional. -/
def lines (s : List Char) : List (List Char) :=
  let pieces := s.splitOn '\n'
  let last := pieces.getLastD []
  pieces.dropLast.map stripCr ++ if last = [] then [] else [last]

def pushDigit (acc : ℕ) (c : Char) : Option ℕ :=
  let next := 10*acc + (c.toNat - '0'.toNat)
  if c.isDigit ∧ next < 2^64 then some next else none

/-- `str::parse::<u64>`: an optional `+`, then decimal digits whose value fits. -/
def parseU64 : List Char → Option UInt64
  | [] => none
  | ['+'] => none
  | '+'::digits => (digits.foldlM pushDigit 0).map UInt64.ofNat
  | digits => (digits.foldlM pushDigit 0).map UInt64.ofNat

/-- The `Display` text of a `u64`. -/
def formatU64 (n : UInt64) : List Char := Nat.toDigits 10 n.toNat

theorem not_mem_of_mem_splitOn {A : Type*} [BEq A] [LawfulBEq A] {sep : A} {s l : List A}
    (h : l ∈ s.splitOn sep) : sep ∉ l ∧ ∀ c ∈ l, c ∈ s := by
  induction s generalizing l with
  | nil => simp_all
  | cons c s ih =>
    rw [List.splitOn_cons_eq_if_modifyHead] at h
    split at h
    · rcases List.mem_cons.mp h with rfl | h
      · simp
      · exact ⟨(ih h).1,fun d hd => List.mem_cons_of_mem _ ((ih h).2 d hd)⟩
    · rename_i hc
      obtain ⟨first,rest,hs⟩ := List.exists_cons_of_ne_nil (List.splitOn_ne_nil sep s)
      rw [hs,List.modifyHead_cons] at h
      rw [hs] at ih
      rcases List.mem_cons.mp h with rfl | h
      · have hf := ih (l := first) (by simp)
        refine ⟨?_,?_⟩
        · simp only [List.mem_cons,not_or]
          exact ⟨fun he => hc (by simp [he]),hf.1⟩
        · intro d hd
          rcases List.mem_cons.mp hd with rfl | hd
          · simp
          · exact List.mem_cons_of_mem _ (hf.2 d hd)
      · have hf := ih (l := l) (by simp [h])
        exact ⟨hf.1,fun d hd => List.mem_cons_of_mem _ (hf.2 d hd)⟩

theorem mem_of_mem_stripCr {line : List Char} {c : Char} (h : c ∈ stripCr line) : c ∈ line := by
  unfold stripCr at h
  split at h
  · exact List.mem_of_mem_dropLast h
  · exact h

/-- A line holds no newline and only characters of the text. -/
theorem mem_lines {s l : List Char} (h : l ∈ lines s) : '\n' ∉ l ∧ ∀ c ∈ l, c ∈ s := by
  rcases List.mem_append.mp h with h | h
  · obtain ⟨piece,hp,rfl⟩ := List.mem_map.mp h
    have hm := not_mem_of_mem_splitOn (List.mem_of_mem_dropLast hp)
    exact ⟨fun hn => hm.1 (mem_of_mem_stripCr hn),fun c hc => hm.2 c (mem_of_mem_stripCr hc)⟩
  · split at h
    · simp at h
    · rw [List.mem_singleton] at h
      subst h
      have hm : (s.splitOn '\n').getLastD [] ∈ s.splitOn '\n' := by
        rw [List.getLastD_eq_getLast?,List.getLast?_eq_some_getLast (List.splitOn_ne_nil _ _)]
        exact List.getLast_mem _
      exact not_mem_of_mem_splitOn hm

theorem splitOn_terminated (ls : List (List Char)) (hl : ∀ l ∈ ls, '\n' ∉ l) (last : List Char)
    (hlast : '\n' ∉ last) :
    ((ls.flatMap (· ++ ['\n'])) ++ last).splitOn '\n' = ls ++ [last] := by
  induction ls with
  | nil => simpa using List.splitOn_eq_singleton hlast
  | cons l ls ih =>
    have h := ih (fun m hm => hl m (by simp [hm]))
    simp only [List.flatMap_cons,List.append_assoc,List.cons_append,List.nil_append]
    rw [List.splitOn_append_cons_self_of_not_mem (hl l (by simp)),h]

/-- Reading back lines written with their newlines, the last one possibly cut short. -/
theorem lines_terminated (ls : List (List Char)) (hl : ∀ l ∈ ls, '\n' ∉ l ∧ l.getLast? ≠ some '\r')
    (last : List Char) (hlast : '\n' ∉ last) :
    lines ((ls.flatMap (· ++ ['\n'])) ++ last) = ls ++ if last = [] then [] else [last] := by
  have hs := splitOn_terminated ls (fun l h => (hl l h).1) last hlast
  have hm : ls.map stripCr = ls := by
    rw [List.map_congr_left (g := id),List.map_id]
    intro l h
    simp [stripCr,(hl l h).2]
  simp only [lines,hs,List.dropLast_concat,hm,List.getLastD_concat]

theorem foldlM_pushDigit_iff (digits : List Char) (acc v : ℕ) (ha : acc < 2^64) :
    digits.foldlM pushDigit acc = some v ↔
      (∀ c ∈ digits, c.isDigit = true) ∧ Nat.ofDigitChars 10 digits acc = v ∧ v < 2^64 := by
  induction digits generalizing acc with
  | nil =>
    simp only [List.foldlM_nil,Option.pure_def,Option.some.injEq,List.not_mem_nil,false_implies,
      implies_true,Nat.ofDigitChars_nil,true_and]
    constructor
    · rintro rfl
      exact ⟨rfl,ha⟩
    · exact And.left
  | cons c cs ih =>
    simp only [List.foldlM_cons,pushDigit,Option.bind_eq_bind,Nat.ofDigitChars_cons,List.mem_cons,
      forall_eq_or_imp]
    split
    · rename_i hc
      simp only [Option.bind_some,ih _ hc.2,hc.1,true_and]
    · rename_i hc
      simp only [Option.bind_none,reduceCtorEq,false_iff]
      rintro ⟨⟨hd,_⟩,hv,hlt⟩
      apply hc
      refine ⟨hd,?_⟩
      have hle : 10*acc + (c.toNat - '0'.toNat) ≤ v := by
        rw [← hv,Nat.ofDigitChars_eq_ofDigitChars_zero]
        have hp : 0 < 10^cs.length := by positivity
        nlinarith [Nat.zero_le (Nat.ofDigitChars 10 cs 0)]
      omega

/-- Text of digits only, read as a number. -/
theorem parseU64_digits {digits : List Char} (hne : digits ≠ []) (hd : ∀ c ∈ digits, c.isDigit = true) :
    parseU64 digits = (digits.foldlM pushDigit 0).map UInt64.ofNat := by
  cases digits with
  | nil => exact absurd rfl hne
  | cons c cs =>
    have hc : c ≠ '+' := by
      rintro rfl
      exact absurd (hd '+' (by simp)) (by decide)
    cases cs <;> simp_all [parseU64]

theorem formatU64_digits (n : UInt64) : ∀ c ∈ formatU64 n, c.isDigit = true := fun _ hc =>
  Nat.isDigit_of_mem_toDigits (by omega) (by omega) hc

theorem formatU64_ne_nil (n : UInt64) : formatU64 n ≠ [] := Nat.toDigits_ne_nil

@[simp] theorem parseU64_formatU64 (n : UInt64) : parseU64 (formatU64 n) = some n := by
  rw [parseU64_digits (formatU64_ne_nil n) (formatU64_digits n)]
  have h : (formatU64 n).foldlM pushDigit 0 = some n.toNat :=
    (foldlM_pushDigit_iff _ _ _ (by norm_num)).mpr
      ⟨formatU64_digits n,Nat.ofDigitChars_ten_toDigits,n.toNat_lt⟩
  simp [h]

/-- A number whose text was cut short never reads back as the same number. -/
theorem parseU64_ne_of_prefix {n : UInt64} {p q : List Char} (hpq : p ++ q = formatU64 n)
    (hq : q ≠ []) : parseU64 p ≠ some n := by
  intro h
  have hd : ∀ c ∈ p, c.isDigit = true := fun c hc => formatU64_digits n c (by simp [← hpq,hc])
  by_cases hp : p = []
  · simp [hp,parseU64] at h
  rw [parseU64_digits hp hd,Option.map_eq_some_iff] at h
  obtain ⟨v,hv,hvn⟩ := h
  obtain ⟨_,hval,hlt⟩ := (foldlM_pushDigit_iff p 0 v (by norm_num)).mp hv
  have hn : n.toNat = v := by rw [← hvn,UInt64.toNat_ofNat_of_lt' hlt]
  have hfull : Nat.ofDigitChars 10 (p ++ q) 0 = n.toNat := by
    rw [hpq]
    exact Nat.ofDigitChars_ten_toDigits
  rw [Nat.ofDigitChars_append,hval,Nat.ofDigitChars_eq_ofDigitChars_zero,hn] at hfull
  have hpow : 10 ≤ 10^q.length := by
    calc 10 = 10^1 := by norm_num
      _ ≤ 10^q.length := Nat.pow_le_pow_right (by norm_num) (List.length_pos_iff.mpr hq)
  have hmul := Nat.mul_le_mul_right v hpow
  have hv0 : v = 0 := by omega
  have hlen := congrArg List.length hpq
  have hp1 := List.length_pos_iff.mpr hp
  have hq1 := List.length_pos_iff.mpr hq
  rw [formatU64,hn,hv0,Nat.toDigits_zero,List.length_append,List.length_singleton] at hlen
  omega

end RustStr
end PolymorphOS
