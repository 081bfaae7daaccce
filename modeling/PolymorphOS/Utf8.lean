import Mathlib.Tactic

/-! UTF-8 over lists of bytes.
A string is the list of its Unicode scalar values; its bytes are the core
library's encoding, and decoding refuses every other byte list. -/
namespace PolymorphOS
namespace Utf8

/-- The UTF-8 bytes of a string. -/
def encode (s : List Char) : List UInt8 := s.flatMap String.utf8EncodeChar

/-- The string whose bytes these are, or `none` when they are not valid UTF-8. -/
def decode (bytes : List UInt8) : Option (List Char) :=
  bytes.toByteArray.utf8Decode?.map Array.toList

@[simp] theorem encode_nil : encode [] = [] := rfl

@[simp] theorem encode_append (s t : List Char) : encode (s ++ t) = encode s ++ encode t := by
  simp [encode]

theorem encode_cons (c : Char) (s : List Char) :
    encode (c :: s) = String.utf8EncodeChar c ++ encode s := rfl

theorem toByteArray_encode (s : List Char) : (encode s).toByteArray = s.utf8Encode := rfl

@[simp] theorem decode_encode (s : List Char) : decode (encode s) = some s := by
  rw [decode,toByteArray_encode,List.utf8Decode?_utf8Encode]
  rfl

theorem encode_of_decode {bytes : List UInt8} {s : List Char} (h : decode bytes = some s) :
    encode s = bytes := by
  obtain ⟨chars,hc,rfl⟩ := Option.map_eq_some_iff.mp h
  apply List.toByteArray_inj.mp
  have hs : bytes.toByteArray.utf8Decode?.isSome := Option.isSome_of_eq_some hc
  have he := ByteArray.utf8Encode_get_utf8Decode? (b := bytes.toByteArray) (h := hs)
  simpa only [toByteArray_encode,Option.get_of_eq_some _ hc] using he

/-- Encoding is prefix-free: only a prefix of the characters encodes to a prefix of the bytes. -/
theorem prefix_of_encode_prefix {s t : List Char} (h : encode s <+: encode t) : s <+: t := by
  obtain ⟨rest,hr⟩ := h
  apply List.isPrefix_of_utf8Encode_append_eq_utf8Encode rest.toByteArray
  rw [← toByteArray_encode,← toByteArray_encode,← hr,List.toByteArray_append]

theorem encode_length_ge (s : List Char) : s.length ≤ (encode s).length := by
  induction s with
  | nil => simp
  | cons c s ih =>
    have hc := c.utf8Size_pos
    simp only [encode_cons,List.length_append,String.length_utf8EncodeChar,List.length_cons]
    omega

@[simp] theorem encode_replicate_nul (n : ℕ) :
    encode (List.replicate n '\x00') = List.replicate n 0 := by
  induction n with
  | zero => rfl
  | succ n ih =>
    rw [List.replicate_succ,List.replicate_succ,encode_cons,ih]
    rfl

theorem zero_not_mem_utf8EncodeChar {c : Char} (h : c ≠ '\x00') :
    (0 : UInt8) ∉ String.utf8EncodeChar c := by
  have hbyte : ∀ n : ℕ, 0 < n → n < 256 → (0 : UInt8) ≠ .ofNat n := by
    intro n hpos hlt hn
    have hval := congrArg UInt8.toNat hn
    rw [UInt8.toNat_ofNat_of_lt' hlt] at hval
    exact Nat.ne_of_lt hpos hval
  have hval : c.val.toNat ≠ 0 := fun hz => h (Char.ext (UInt32.toNat_inj.mp hz))
  intro hmem
  simp only [String.utf8EncodeChar] at hmem
  split_ifs at hmem with h₁ h₂ h₃
  all_goals
    simp only [List.mem_cons,List.not_mem_nil,or_false] at hmem
  · exact hbyte _ (by omega) (by omega) hmem
  · rcases hmem with hmem | hmem
    all_goals exact hbyte _ (by omega) (by omega) hmem
  · rcases hmem with hmem | hmem | hmem
    all_goals exact hbyte _ (by omega) (by omega) hmem
  · rcases hmem with hmem | hmem | hmem | hmem
    all_goals exact hbyte _ (by omega) (by omega) hmem

theorem zero_not_mem_encode {s : List Char} (h : '\x00' ∉ s) : (0 : UInt8) ∉ encode s := by
  intro hmem
  obtain ⟨c,hc,hzero⟩ := List.mem_flatMap.mp hmem
  exact zero_not_mem_utf8EncodeChar (fun hnul => h (hnul ▸ hc)) hzero

end Utf8
end PolymorphOS
