import PolymorphOS.E1000
import PolymorphOS.OnesComplement
import PolymorphOS.RustCore
import PolymorphOS.Utf8

/-! `e1000.rs`: the Internet checksum, and the echo request that carries two of them. -/
namespace PolymorphOS

/-- `a + b` on `u32`. -/
def addU32 (build : Profile) (a b : UInt32) : Except Panic UInt32 :=
  if a.toNat + b.toNat < 2^32 ∨ build = .release then .ok (a + b) else .error .overflow

theorem addU32_ok {a b : UInt32} (build : Profile) (h : a.toNat + b.toNat < 2^32) :
    addU32 build a b = .ok (a + b) := if_pos (.inl h)

namespace E1000

/-- `(word0 << 8) | word1` -/
def combine (word0 word1 : UInt8) : UInt32 := word0.toUInt32 <<< 8 ||| word1.toUInt32

/-- The first loop: the data as big-endian words, an odd last byte padded with a zero. -/
def sumWords (build : Profile) (sum : UInt32) : List UInt8 → Except Panic UInt32
  | [] => .ok sum
  | [word0] => addU32 build sum (combine word0 0)
  | word0::word1::rest => do
    let sum ← addU32 build sum (combine word0 word1)
    sumWords build sum rest

/-- `sum & 0xFFFF` -/
def low (sum : UInt32) : UInt32 := sum &&& 0xFFFF

/-- `sum >> 16` -/
def high (sum : UInt32) : UInt32 := sum >>> 16

theorem toNat_low (sum : UInt32) : (low sum).toNat = sum.toNat % 65536 :=
  Nat.and_two_pow_sub_one_eq_mod sum.toNat 16

theorem toNat_high (sum : UInt32) : (high sum).toNat = sum.toNat / 65536 :=
  Nat.shiftRight_eq_div_pow sum.toNat 16

/-- The body of the second loop never overflows, whatever the sum. -/
theorem addU32_fold (build : Profile) (sum : UInt32) :
    addU32 build (low sum) (high sum) = .ok (low sum + high sum) := by
  have hlow := toNat_low sum
  have hhigh := toNat_high sum
  have hlt := sum.toNat_lt
  exact addU32_ok build (by omega)

theorem toNat_fold (sum : UInt32) :
    (low sum + high sum).toNat = sum.toNat % 65536 + sum.toNat / 65536 := by
  have hlt := sum.toNat_lt
  rw [UInt32.toNat_add,toNat_low,toNat_high,Nat.mod_eq_of_lt (by omega)]

theorem high_ne_zero_iff (sum : UInt32) : high sum ≠ 0 ↔ 65536 ≤ sum.toNat := by
  rw [Ne,← UInt32.toNat_inj,toNat_high,UInt32.toNat_zero]
  omega

/-- The second loop: the upper half of the sum is added to the lower one until it is zero. -/
def foldSum (build : Profile) (sum : UInt32) : Except Panic UInt32 :=
  if _ : high sum ≠ 0 then do
    let _ ← addU32 build (low sum) (high sum)
    foldSum build (low sum + high sum)
  else .ok sum
termination_by sum.toNat
decreasing_by
  rename_i hne
  have hle := (high_ne_zero_iff sum).mp hne
  rw [toNat_fold]
  omega

/-- `calculate_checksum` -/
def calculateChecksum (build : Profile) (data : List UInt8) : Except Panic UInt16 := do
  let sum ← sumWords build 0 data
  let sum ← foldSum build sum
  return ~~~sum.toUInt16

/-- The checksum in network byte order, from an offset on. -/
def storeChecksum (packet : List UInt8) (offset : ℕ) (csum : UInt16) : List UInt8 :=
  (packet.set offset (csum >>> 8).toUInt8).set (offset + 1) (csum &&& 0xFF).toUInt8

/-- `packet[i..].copy_from_slice(bytes)`, for bytes that fit. -/
def copyAt (packet : List UInt8) (i : ℕ) (bytes : List UInt8) : List UInt8 :=
  packet.take i ++ bytes ++ packet.drop (i + bytes.length)

def pingPayload : List UInt8 := Utf8.encode "PolymorphOS Bare-Metal Ping Test!".toList

/-- The frame that `send_ping` builds. -/
def pingFrame (build : Profile) (macAddress destMac : Vector UInt8 6)
    (destIp sourceIp : Vector UInt8 4) : Except Panic (List UInt8) := do
  let packetSize := 42 + pingPayload.length
  let packet := List.replicate packetSize 0
  -- the Ethernet frame
  let packet := copyAt packet 0 destMac.toList
  let packet := copyAt packet 6 macAddress.toList
  let packet := (packet.set 12 0x08).set 13 0x00
  -- the IPv4 header
  let packet := (packet.set 14 0x45).set 15 0x00
  let ipLen := UInt16.ofNat (20 + 8 + pingPayload.length)
  let packet := (packet.set 16 (ipLen >>> 8).toUInt8).set 17 (ipLen &&& 0xFF).toUInt8
  let packet := (packet.set 18 0x12).set 19 0x34
  let packet := (packet.set 20 0x40).set 21 0x00
  let packet := (packet.set 22 0x40).set 23 0x01
  let packet := copyAt packet 26 sourceIp.toList
  let packet := copyAt packet 30 destIp.toList
  let packet := (packet.set 24 0).set 25 0
  let ipCsum ← calculateChecksum build ((packet.drop 14).take 20)
  let packet := storeChecksum packet 24 ipCsum
  -- the ICMP echo request
  let packet := (packet.set 34 0x08).set 35 0x00
  let packet := (packet.set 38 0x00).set 39 0x01
  let packet := (packet.set 40 0x00).set 41 0x01
  let packet := copyAt packet 42 pingPayload
  let packet := (packet.set 36 0).set 37 0
  let icmpCsum ← calculateChecksum build (packet.drop 34)
  return storeChecksum packet 36 icmpCsum

end E1000

def E1000Driver.sendPing (build : Profile) (d : E1000Driver) (macAddress destMac : Vector UInt8 6)
    (destIp sourceIp : Vector UInt8 4) : Except Panic E1000Driver := do
  return d.transmitPacketSecure (← E1000.pingFrame build macAddress destMac destIp sourceIp)

namespace E1000

variable {build : Profile} {data : List UInt8} {offset : ℕ}

/-- The value of the first loop as a number. -/
def wordSum : List UInt8 → ℕ
  | [] => 0
  | [word0] => word0.toNat * 256
  | word0::word1::rest => word0.toNat * 256 + word1.toNat + wordSum rest

theorem toNat_combine (word0 word1 : UInt8) :
    (combine word0 word1).toNat = word0.toNat * 256 + word1.toNat := by
  have h0 := word0.toNat_lt
  have hshift : (word0.toUInt32 <<< (8 : UInt32)).toNat = word0.toNat <<< 8 := by
    simp only [UInt32.toNat_shiftLeft,UInt8.toNat_toUInt32,UInt32.reduceToNat,Nat.reduceMod,
      Nat.shiftLeft_eq,Nat.reducePow]
    omega
  rw [combine,UInt32.toNat_or,hshift,UInt8.toNat_toUInt32,
    ← Nat.shiftLeft_add_eq_or_of_lt word1.toNat_lt,Nat.shiftLeft_eq]

theorem wordSum_le (data : List UInt8) : wordSum data ≤ 65535 * ((data.length + 1) / 2) := by
  induction data using wordSum.induct with
  | case1 => simp [wordSum]
  | case2 word0 =>
    have h0 := word0.toNat_lt
    simp only [wordSum,List.length_singleton]
    omega
  | case3 word0 word1 rest ih =>
    have h0 := word0.toNat_lt
    have h1 := word1.toNat_lt
    simp only [wordSum,List.length_cons]
    omega

theorem toNat_add {a b : UInt32} (h : a.toNat + b.toNat < 2^32) :
    (a + b).toNat = a.toNat + b.toNat := by
  rw [UInt32.toNat_add,Nat.mod_eq_of_lt h]

theorem sumWords_ok (build : Profile) (data : List UInt8) (sum : UInt32)
    (h : sum.toNat + wordSum data < 2^32) : ∃ total : UInt32,
      sumWords build sum data = .ok total ∧ total.toNat = sum.toNat + wordSum data := by
  induction data using wordSum.induct generalizing sum with
  | case1 => exact ⟨sum,rfl,rfl⟩
  | case2 word0 =>
    have hcombine := toNat_combine word0 0
    simp only [wordSum,UInt8.toNat_zero,Nat.add_zero] at h hcombine ⊢
    rw [← hcombine] at h ⊢
    exact ⟨_,addU32_ok build h,toNat_add h⟩
  | case3 word0 word1 rest ih =>
    have hcombine := toNat_combine word0 word1
    simp only [wordSum] at h ⊢
    rw [← hcombine] at h ⊢
    have hlt : sum.toNat + (combine word0 word1).toNat < 2^32 := by omega
    have hsum := toNat_add hlt
    obtain ⟨total,htotal,hval⟩ := ih (sum + combine word0 word1) (by omega)
    refine ⟨total,?_,by omega⟩
    simp only [sumWords,addU32_ok build hlt,bind,Except.bind]
    exact htotal

theorem foldSum_carry (build : Profile) {sum : UInt32} (h : 65536 ≤ sum.toNat) :
    foldSum build sum = foldSum build (low sum + high sum) := by
  conv_lhs => rw [foldSum]
  rw [dif_pos ((high_ne_zero_iff sum).mpr h),addU32_fold]
  rfl

theorem foldSum_ok (build : Profile) (sum : UInt32) : ∃ folded : UInt32,
    foldSum build sum = .ok folded ∧ folded.toNat = OnesComplement.fold 65536 sum.toNat := by
  induction hn : sum.toNat using Nat.strong_induction_on generalizing sum with
  | _ n ih =>
    by_cases hle : 65536 ≤ sum.toNat
    · obtain ⟨folded,hfold,hval⟩ :=
        ih (low sum + high sum).toNat (by rw [toNat_fold]; omega) _ rfl
      rw [foldSum_carry build hle,← hn,OnesComplement.fold_of_le (by norm_num) hle,← toNat_fold]
      exact ⟨folded,hfold,hval⟩
    · rw [foldSum,dif_neg (mt (high_ne_zero_iff sum).mp hle),← hn,
        OnesComplement.fold_of_lt (not_le.mp hle)]
      exact ⟨sum,rfl,rfl⟩

theorem calculateChecksum_ok (build : Profile) (data : List UInt8) (h : wordSum data < 2^32) :
    ∃ csum : UInt16,
    calculateChecksum build data = .ok csum ∧
      csum.toNat = 65535 - OnesComplement.fold 65536 (wordSum data) := by
  obtain ⟨sum,hsum,hval⟩ := sumWords_ok build data 0 (by rw [UInt32.toNat_zero]; omega)
  obtain ⟨folded,hfold,hfolded⟩ := foldSum_ok build sum
  have hlt := (OnesComplement.folded_fold (b := 65536) (by norm_num) (wordSum data)).lt
  rw [UInt32.toNat_zero,Nat.zero_add] at hval
  refine ⟨~~~folded.toUInt16,?_,?_⟩
  · simp only [calculateChecksum,hsum,hfold,bind,Except.bind]
    rfl
  · rw [UInt16.toNat_not,UInt32.toNat_toUInt16,hfolded,hval,Nat.mod_eq_of_lt hlt]
    rfl

/-- A word that was zero is the checksum's place. -/
theorem wordSum_storeChecksum (csum : UInt16) (heven : offset % 2 = 0) (h0 : data[offset]? = some 0)
    (h1 : data[offset + 1]? = some 0) :
    wordSum (storeChecksum data offset csum) = wordSum data + csum.toNat := by
  induction data using wordSum.induct generalizing offset with
  | case1 => simp at h0
  | case2 word0 => simp at h1
  | case3 word0 word1 rest ih =>
    match offset with
    | 0 =>
      simp only [List.getElem?_cons_zero,List.getElem?_cons_succ,Nat.zero_add,Option.some.injEq] at h0 h1
      have hlow : (csum &&& 0xFF).toUInt8.toNat = csum.toNat % 256 := by
        have hmask : (csum &&& 0xFF).toNat = csum.toNat % 256 :=
          Nat.and_two_pow_sub_one_eq_mod csum.toNat 8
        rw [UInt16.toNat_toUInt8,hmask]
        omega
      have hhigh : (csum >>> 8).toUInt8.toNat = csum.toNat / 256 := by
        have hshift : (csum >>> 8).toNat = csum.toNat / 256 := Nat.shiftRight_eq_div_pow csum.toNat 8
        have hlt := csum.toNat_lt
        rw [UInt16.toNat_toUInt8,hshift]
        omega
      simp only [storeChecksum,List.set_cons_zero,List.set_cons_succ,wordSum,hlow,hhigh,h0,h1,
        UInt8.toNat_zero]
      omega
    | 1 => simp at heven
    | offset + 2 =>
      simp only [List.getElem?_cons_succ] at h0 h1
      have hrest := ih (by omega) h0 h1
      simp only [storeChecksum,List.set_cons_succ,wordSum] at hrest ⊢
      omega

theorem length_storeChecksum (csum : UInt16) :
    (storeChecksum data offset csum).length = data.length := by
  simp only [storeChecksum,List.length_set]

/-- The checksum of a sequence that carries its checksum is zero. -/
theorem calculateChecksum_storeChecksum (build : Profile) (data : List UInt8) (offset : ℕ)
    (hlen : data.length ≤ 65535)
    (heven : offset % 2 = 0) (h0 : data[offset]? = some 0) (h1 : data[offset + 1]? = some 0) :
    ∃ csum, calculateChecksum build data = .ok csum ∧
      calculateChecksum build (storeChecksum data offset csum) = .ok 0 := by
  have hsum := wordSum_le data
  obtain ⟨csum,hcsum,hval⟩ := calculateChecksum_ok build data (by omega)
  have hstored := wordSum_le (storeChecksum data offset csum)
  rw [length_storeChecksum] at hstored
  obtain ⟨zero,hzero,hzval⟩ :=
    calculateChecksum_ok build (storeChecksum data offset csum) (by omega)
  have htotal := OnesComplement.fold_add_complement (b := 65536) (by norm_num) (wordSum data)
  rw [wordSum_storeChecksum csum heven h0 h1,hval,htotal] at hzval
  refine ⟨csum,hcsum,?_⟩
  rw [hzero]
  exact congrArg Except.ok (UInt16.toNat_inj.mp hzval)

theorem toList_six (v : Vector UInt8 6) : ∃ a b c d e f, v.toList = [a,b,c,d,e,f] :=
  ⟨v[0],v[1],v[2],v[3],v[4],v[5],by
    apply List.ext_getElem
    · simp
    · intro i hi hi'
      simp at hi'
      interval_cases i <;> simp⟩

theorem toList_four (v : Vector UInt8 4) : ∃ a b c d, v.toList = [a,b,c,d] :=
  List.length_eq_four.mp v.length_toList

/-- The IPv4 header before it has its checksum. -/
def ipHeader (destIp sourceIp : Vector UInt8 4) : List UInt8 :=
  [0x45,0x00,0x00,0x3D,0x12,0x34,0x40,0x00,0x40,0x01,0x00,0x00] ++ sourceIp.toList ++ destIp.toList

/-- The echo request before it has its checksum. -/
def icmpMessage : List UInt8 := [0x08,0x00,0x00,0x00,0x00,0x01,0x00,0x01] ++ pingPayload

theorem pingPayload_eq : pingPayload = [0x50,0x6F,0x6C,0x79,0x6D,0x6F,0x72,0x70,0x68,0x4F,0x53,0x20,
    0x42,0x61,0x72,0x65,0x2D,0x4D,0x65,0x74,0x61,0x6C,0x20,0x50,0x69,0x6E,0x67,0x20,0x54,0x65,0x73,
    0x74,0x21] := by decide

/-- The frame: the Ethernet header, and the two messages with their checksums. -/
theorem pingFrame_eq (build : Profile) (macAddress destMac : Vector UInt8 6)
    (destIp sourceIp : Vector UInt8 4) :
    pingFrame build macAddress destMac destIp sourceIp = do
      let ipCsum ← calculateChecksum build (ipHeader destIp sourceIp)
      let icmpCsum ← calculateChecksum build icmpMessage
      return destMac.toList ++ macAddress.toList ++ [0x08,0x00] ++
        storeChecksum (ipHeader destIp sourceIp) 10 ipCsum ++ storeChecksum icmpMessage 2 icmpCsum := by
  obtain ⟨m0,m1,m2,m3,m4,m5,hmac⟩ := toList_six macAddress
  obtain ⟨e0,e1,e2,e3,e4,e5,hdest⟩ := toList_six destMac
  obtain ⟨d0,d1,d2,d3,hip⟩ := toList_four destIp
  obtain ⟨s0,s1,s2,s3,hsource⟩ := toList_four sourceIp
  simp only [pingFrame,ipHeader,icmpMessage,hmac,hdest,hip,hsource,pingPayload_eq,copyAt,
    storeChecksum,List.length_cons,List.length_nil,Nat.reduceAdd,List.replicate,List.set_cons_succ,
    List.set_cons_zero,List.take_succ_cons,List.drop_succ_cons,List.drop_zero,List.take_zero,
    List.cons_append,List.nil_append,List.append_nil]
  rfl

theorem length_ipHeader (destIp sourceIp : Vector UInt8 4) :
    (ipHeader destIp sourceIp).length = 20 := by
  simp [ipHeader]

/-- Both messages of an echo request carry a checksum that checks. -/
theorem pingFrame_valid (build : Profile) (macAddress destMac : Vector UInt8 6)
    (destIp sourceIp : Vector UInt8 4) : ∃ frame,
      pingFrame build macAddress destMac destIp sourceIp = .ok frame ∧
      calculateChecksum build ((frame.drop 14).take 20) = .ok 0 ∧
      calculateChecksum build (frame.drop 34) = .ok 0 := by
  have hlen := length_ipHeader destIp sourceIp
  obtain ⟨ipCsum,hip,hipZero⟩ := calculateChecksum_storeChecksum build
    (ipHeader destIp sourceIp) 10 (by omega) rfl rfl rfl
  obtain ⟨icmpCsum,hicmp,hicmpZero⟩ := calculateChecksum_storeChecksum build
    icmpMessage 2 (by rw [icmpMessage,pingPayload_eq]; decide) rfl rfl rfl
  rw [pingFrame_eq,hip,hicmp]
  refine ⟨_,rfl,?_,?_⟩
  · rw [List.append_assoc,List.drop_left' (by simp),
      List.take_left' (by rw [length_storeChecksum,hlen])]
    exact hipZero
  · rw [List.drop_left' (by simp [length_storeChecksum,hlen])]
    exact hicmpZero

end E1000
end PolymorphOS
