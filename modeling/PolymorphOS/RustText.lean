import Mathlib.Data.List.Infix
import PolymorphOS.RustCore
import PolymorphOS.RustStr

/-! Text that grows and is searched: `String` within its size limit, words, signed numbers, and
bytes that are taken for characters. -/
namespace PolymorphOS
namespace RustStr

/-- `str::contains`. -/
def contains (s pattern : List Char) : Bool := decide (pattern <:+: s)

/-- `str::find`, counted in characters. -/
def find (s pattern : List Char) : Option ℕ :=
  (List.range (s.length + 1)).find? fun i => pattern.isPrefixOf (s.drop i)

/-- `str::split_whitespace`. -/
def splitWhitespace (s : List Char) : List (List Char) :=
  (s.splitOnP isWhitespace).filter fun word => !word.isEmpty

/-- The `Display` text of an `i32`. -/
def formatI32 (n : Int32) : List Char :=
  if n.toInt < 0 then '-' :: Nat.toDigits 10 n.toInt.natAbs else Nat.toDigits 10 n.toInt.natAbs

/-- `n + 1` on `i32`. -/
def succI32 (build : Profile) (n : Int32) : Except Panic Int32 :=
  if n ≠ Int32.maxValue ∨ build = .release then .ok (n + 1) else .error .overflow

theorem toDigits_injective : Function.Injective (Nat.toDigits 10) := by
  intro m n h
  have hval := congrArg (fun digits => Nat.ofDigitChars 10 digits 0) h
  simpa only [Nat.ofDigitChars_ten_toDigits] using hval

theorem isDigit_toDigits {n : ℕ} {c : Char} (h : c ∈ Nat.toDigits 10 n) : c.isDigit = true :=
  Nat.isDigit_of_mem_toDigits (by decide) (by decide) h

theorem formatI32_injective : Function.Injective formatI32 := by
  have hsign : ∀ m n : ℕ, '-' :: Nat.toDigits 10 m ≠ Nat.toDigits 10 n := fun m n h =>
    absurd (isDigit_toDigits (h ▸ List.mem_cons_self : '-' ∈ Nat.toDigits 10 n)) (by decide)
  intro m n h
  apply Int32.toInt.inj
  unfold formatI32 at h
  split at h <;> split at h
  · have habs := toDigits_injective (List.cons.inj h).2
    omega
  · exact absurd h (hsign _ _)
  · exact absurd h.symm (hsign _ _)
  · have habs := toDigits_injective h
    omega

theorem toLower_of_isDigit {c : Char} (h : c.isDigit = true) : c.toLower = c := by
  have hle : c.val ≤ 57 := by
    simp only [Char.isDigit,Bool.and_eq_true,decide_eq_true_eq] at h
    exact h.2
  refine dif_neg ?_
  rintro ⟨hge,_⟩
  have hle' : c.val.toNat ≤ 57 := UInt32.le_iff_toNat_le.mp hle
  have hge' : 65 ≤ c.val.toNat := UInt32.le_iff_toNat_le.mp hge
  omega

theorem utf8EncodeChar_ofUInt8 (b : UInt8) :
    (b < 0x80 ∧ String.utf8EncodeChar (Char.ofUInt8 b) = [b]) ∨
      (¬b < 0x80 ∧ (String.utf8EncodeChar (Char.ofUInt8 b)).length = 2) := by
  have hval : (Char.ofUInt8 b).val.toNat = b.toNat := UInt8.toNat_toUInt32 b
  have hlt := b.toNat_lt
  by_cases hb : b < 0x80
  · have hle : b.toNat ≤ 127 := Nat.le_of_lt_succ (UInt8.lt_iff_toNat_lt.mp hb)
    refine .inl ⟨hb,?_⟩
    simp only [String.utf8EncodeChar,hval,if_pos hle,UInt8.ofNat_toNat]
  · have hnle : ¬b.toNat ≤ 127 := fun hle =>
      hb (UInt8.lt_iff_toNat_lt.mpr (Nat.lt_succ_of_le hle))
    have hle : b.toNat ≤ 2047 := by omega
    refine .inr ⟨hb,?_⟩
    simp only [String.utf8EncodeChar,hval,if_neg hnle,if_pos hle,List.length_cons,List.length_nil]

/-- Bytes taken for characters come out as they were only if they are ASCII. -/
theorem encode_ofUInt8_iff {bytes : List UInt8} :
    Utf8.encode (bytes.map Char.ofUInt8) = bytes ↔ ∀ b ∈ bytes, b < 0x80 := by
  induction bytes with
  | nil => exact iff_of_true rfl fun b hb => absurd hb List.not_mem_nil
  | cons b bytes ih =>
    rw [List.map_cons,Utf8.encode_cons,List.forall_mem_cons,← ih]
    rcases utf8EncodeChar_ofUInt8 b with ⟨hb,henc⟩ | ⟨hb,hlen⟩
    · rw [henc,List.singleton_append,List.cons.injEq]
      exact ⟨fun h => ⟨hb,h.2⟩,fun h => ⟨rfl,h.2⟩⟩
    · refine iff_of_false (fun h => ?_) fun h => hb h.1
      have hge := Utf8.encode_length_ge (bytes.map Char.ofUInt8)
      have hcount := congrArg List.length h
      rw [List.length_append,hlen,List.length_cons] at hcount
      rw [List.length_map] at hge
      omega

theorem ofUInt8_injective : Function.Injective Char.ofUInt8 := by
  intro a b h
  have hval := congrArg (fun c : Char => c.val.toNat) h
  exact UInt8.toNat_inj.mp hval

/-- Distinct characters for distinct bytes: nothing is found that was not there. -/
theorem map_infix_map_iff {A B : Type*} {f : A → B} (hf : Function.Injective f) {p s : List A} :
    p.map f <:+: s.map f ↔ p <:+: s := by
  constructor
  · rintro ⟨a,b,h⟩
    obtain ⟨ab,b',rfl,hab,_⟩ := List.map_eq_append_iff.mp h.symm
    obtain ⟨a',p',rfl,_,hp⟩ := List.map_eq_append_iff.mp hab
    cases hf.list_map hp
    exact ⟨a',b',rfl⟩
  · exact fun h => h.map f

/-- What is left of a string without its first `n` bytes: nothing if these end inside a character,
or past the end. -/
def dropBytes : ℕ → List Char → Option (List Char)
  | 0, s => some s
  | _+1, [] => none
  | n+1, c::s => if c.utf8Size ≤ n+1 then dropBytes (n+1 - c.utf8Size) s else none

/-- `String::drain(0..n)`. -/
def drainFront (n : ℕ) (s : List Char) : Except Panic (List Char) :=
  match dropBytes n s with
  | some rest => .ok rest
  | none => .error (.explicit "assertion failed: self.is_char_boundary(end)")

/-- `str::is_char_boundary`: the byte at `n` is the first one of a character, or the string ends
there. -/
def IsCharBoundary (s : List Char) (n : ℕ) : Prop :=
  n = (Utf8.encode s).length ∨ ∃ b, (Utf8.encode s)[n]? = some b ∧ b.IsUTF8FirstByte

@[simp] theorem dropBytes_zero (s : List Char) : dropBytes 0 s = some s := by
  cases s <;> rfl

theorem dropBytes_eq_some {n : ℕ} {s rest : List Char} (h : dropBytes n s = some rest) :
    rest <:+ s ∧ (Utf8.encode rest).length + n = (Utf8.encode s).length := by
  induction s generalizing n with
  | nil =>
    cases n with
    | zero =>
      cases Option.some.inj h
      exact ⟨List.suffix_rfl,rfl⟩
    | succ n => cases h
  | cons c s ih =>
    cases n with
    | zero =>
      cases Option.some.inj h
      exact ⟨List.suffix_rfl,rfl⟩
    | succ n =>
      rw [dropBytes] at h
      split at h
      · rename_i hsize
        obtain ⟨hsuffix,hlen⟩ := ih h
        refine ⟨hsuffix.trans (List.suffix_cons c s),?_⟩
        rw [Utf8.encode_cons,List.length_append,String.length_utf8EncodeChar]
        omega
      · cases h

/-- The bytes can be dropped exactly at a boundary. -/
theorem isSome_dropBytes_iff {n : ℕ} {s : List Char} :
    (dropBytes n s).isSome ↔ IsCharBoundary s n := by
  induction s generalizing n with
  | nil => cases n <;> simp [dropBytes,IsCharBoundary]
  | cons c s ih =>
    have hlen : (String.utf8EncodeChar c).length = c.utf8Size := String.length_utf8EncodeChar c
    have hpos := c.utf8Size_pos
    cases n with
    | zero =>
      have hfirst : (String.utf8EncodeChar c)[0].IsUTF8FirstByte :=
        UInt8.isUTF8FirstByte_getElem_zero_utf8EncodeChar
      refine iff_of_true rfl (.inr ⟨_,?_,hfirst⟩)
      rw [Utf8.encode_cons,List.getElem?_append_left (by omega),List.getElem?_eq_getElem]
    | succ n =>
      rw [dropBytes,IsCharBoundary,Utf8.encode_cons,List.length_append,hlen]
      by_cases hsize : c.utf8Size ≤ n+1
      · rw [if_pos hsize,ih,IsCharBoundary,List.getElem?_append_right (by omega),hlen]
        exact or_congr (by omega) Iff.rfl
      · rw [if_neg hsize,List.getElem?_append_left (by omega)]
        refine iff_of_false nofun ?_
        rintro (heq | ⟨b,hb,hfirst⟩)
        · omega
        · obtain ⟨hlt,rfl⟩ := List.getElem?_eq_some_iff.mp hb
          exact absurd (UInt8.isUTF8FirstByte_getElem_utf8EncodeChar.mp hfirst) (by omega)

end RustStr

/-- A `String` has at most `isize::MAX` bytes. -/
@[ext]
structure RustString where
  chars : List Char
  size_lt : (Utf8.encode chars).length < 2^63

namespace RustString

def empty : RustString := ⟨[],by decide⟩

/-- A new allocation for the characters. -/
def ofChars (chars : List Char) : Except Panic RustString :=
  if h : (Utf8.encode chars).length < 2^63 then .ok ⟨chars,h⟩
  else .error (.explicit "capacity overflow")

theorem ofChars_chars {chars : List Char} {s : RustString} (h : ofChars chars = .ok s) :
    s.chars = chars := by
  unfold ofChars at h
  split at h
  · cases h
    rfl
  · cases h

def push (s : RustString) (c : Char) : Except Panic RustString := ofChars (s.chars ++ [c])

def pop (s : RustString) : RustString where
  chars := s.chars.dropLast
  size_lt := by
    refine lt_of_le_of_lt ?_ s.size_lt
    by_cases hne : s.chars = []
    · rw [hne]
      exact le_rfl
    · calc (Utf8.encode s.chars.dropLast).length
        _ ≤ (Utf8.encode (s.chars.dropLast ++ [s.chars.getLast hne])).length := by
          rw [Utf8.encode_append,List.length_append]
          exact Nat.le_add_right _ _
        _ = (Utf8.encode s.chars).length := by rw [List.dropLast_append_getLast hne]

def asBytes (s : RustString) : Slice := ⟨Utf8.encode s.chars,s.size_lt⟩

end RustString
end PolymorphOS
