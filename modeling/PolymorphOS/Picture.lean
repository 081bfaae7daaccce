import PolymorphOS.SwapBuffers

/-! What the bytes of the back buffer are meant to be: a picture of colored pixels, and a wallpaper
kept behind it. Drawing into the bytes paints the picture. -/
namespace PolymorphOS

@[ext]
structure Rgb where
  r : UInt8
  g : UInt8
  b : UInt8
  deriving DecidableEq

/-- A color laid over another one. -/
def Rgb.over (color : Rgb) (alpha : UInt8) (old : Rgb) : Rgb :=
  if alpha = 255 then color
  else if alpha = 0 then old
  else ⟨GpuDriver.mix color.r old.r alpha,GpuDriver.mix color.g old.g alpha,
    GpuDriver.mix color.b old.b alpha⟩

/-- A picture without borders, and the one it is restored to. -/
structure Canvas where
  picture : ℤ → ℤ → Rgb
  wallpaper : ℤ → ℤ → Rgb

namespace DrawCall

/-- The pixels that a call is about. -/
def covers : DrawCall → ℤ → ℤ → Bool
  | .saveToNebulaCache,_,_ => false
  | .restoreFromNebulaCache,_,_ => false
  | .clearScreen _ _ _,_,_ => true
  | .drawGlassRect x y w h _ _ _ _,px,py => x ≤ px ∧ px < x + w ∧ y ≤ py ∧ py < y + h
  | .drawPixel x y _ _ _,px,py => px = x ∧ py = y
  | .blendPixel x y _ _ _ _,px,py => px = x ∧ py = y

def color : DrawCall → Rgb
  | .saveToNebulaCache | .restoreFromNebulaCache => ⟨0,0,0⟩
  | .clearScreen r g b | .drawGlassRect _ _ _ _ r g b _ | .drawPixel _ _ r g b
  | .blendPixel _ _ r g b _ => ⟨r,g,b⟩

def alpha : DrawCall → UInt8
  | .drawGlassRect _ _ _ _ _ _ _ alpha | .blendPixel _ _ _ _ _ alpha => alpha
  | _ => 255

/-- The corners of a rectangle have `i32` coordinates. -/
def InRange : DrawCall → Prop
  | .drawGlassRect x y w h _ _ _ _ => (-2147483648 ≤ x + w ∧ x + w < 2147483648) ∧
      (-2147483648 ≤ y + h ∧ y + h < 2147483648)
  | _ => True

end DrawCall

namespace Canvas

def paint (c : Canvas) (call : DrawCall) : Canvas :=
  match call with
  | .saveToNebulaCache => {c with wallpaper := c.picture}
  | .restoreFromNebulaCache => {c with picture := c.wallpaper}
  | _ => {c with picture := fun x y =>
      if call.covers x y then call.color.over call.alpha (c.picture x y) else c.picture x y}

def paintAll (c : Canvas) (calls : List DrawCall) : Canvas := calls.foldl paint c

end Canvas

namespace GpuDriver

/-- The buffers hold all pixels of a screen, three bytes or more to each. -/
structure Valid (d : GpuDriver) : Prop where
  width_lt : d.width.toNat < 2^31
  height_lt : d.height.toNat < 2^31
  bytes_le : 3 ≤ d.bytesPerPixel.toNat
  fits : d.width.toNat * d.height.toNat * d.bytesPerPixel.toNat ≤ d.backBuffer.length
  nebula_length : d.nebulaBuffer.length = d.backBuffer.length
  length_lt : d.backBuffer.length < 2^63

def OnScreen (d : GpuDriver) (x y : ℤ) : Prop :=
  (0 ≤ x ∧ x < d.width.toNat) ∧ (0 ≤ y ∧ y < d.height.toNat)

/-- Where the bytes of a pixel begin. -/
def index (d : GpuDriver) (x y : ℤ) : ℕ :=
  (y.toNat * d.width.toNat + x.toNat) * d.bytesPerPixel.toNat

/-- The pixel whose bytes begin at an index. -/
def pixelAt (bytes : List UInt8) (i : ℕ) : Rgb :=
  ⟨bytes.getD (i + 2) 0,bytes.getD (i + 1) 0,bytes.getD i 0⟩

/-- The buffers show the picture, as far as it is on the screen. -/
def Shows (d : GpuDriver) (c : Canvas) : Prop :=
  ∀ x y, d.OnScreen x y → pixelAt d.backBuffer (d.index x y) = c.picture x y ∧
    pixelAt d.nebulaBuffer (d.index x y) = c.wallpaper x y

/-- Some pixels are painted over with a color, and nothing else happens. -/
structure Repaints (d d' : GpuDriver) (area : ℤ → ℤ → Prop) (paint : Rgb → Rgb) : Prop where
  shape : SameShape d d'
  nebula : d'.nebulaBuffer = d.nebulaBuffer
  inside : ∀ x y, d.OnScreen x y → area x y →
    pixelAt d'.backBuffer (d.index x y) = paint (pixelAt d.backBuffer (d.index x y))
  outside : ∀ x y, d.OnScreen x y → ¬area x y →
    pixelAt d'.backBuffer (d.index x y) = pixelAt d.backBuffer (d.index x y)

variable {d d' d'' : GpuDriver} {x y : ℤ} {build : Profile}

theorem SameShape.onScreen (h : SameShape d d') : d'.OnScreen = d.OnScreen := by
  funext x y
  simp only [OnScreen,h.width,h.height]

theorem SameShape.index (h : SameShape d d') : d'.index = d.index := by
  funext x y
  simp only [GpuDriver.index,h.width,h.bytesPerPixel]

theorem Repaints.valid {area : ℤ → ℤ → Prop} {paint : Rgb → Rgb} (h : Repaints d d' area paint)
    (hd : d.Valid) : d'.Valid := by
  obtain ⟨⟨hlength,hwidth,hheight,hbytes⟩,hnebula,_,_⟩ := h
  refine ⟨?_,?_,?_,?_,?_,?_⟩
  · rw [hwidth]; exact hd.width_lt
  · rw [hheight]; exact hd.height_lt
  · rw [hbytes]; exact hd.bytes_le
  · rw [hwidth,hheight,hbytes,hlength]; exact hd.fits
  · rw [hnebula,hlength]; exact hd.nebula_length
  · rw [hlength]; exact hd.length_lt

theorem Repaints.refl (d : GpuDriver) (paint : Rgb → Rgb) : Repaints d d (fun _ _ => False) paint where
  shape := .refl d
  nebula := rfl
  inside _ _ _ h := h.elim
  outside _ _ _ _ := rfl

/-- Areas that do not overlap are painted one after the other. -/
theorem Repaints.trans {area area' : ℤ → ℤ → Prop} {paint : Rgb → Rgb}
    (h : Repaints d d' area paint) (h' : Repaints d' d'' area' paint)
    (hapart : ∀ x y, area x y → ¬area' x y) :
    Repaints d d'' (fun x y => area x y ∨ area' x y) paint := by
  have hindex := h.shape.index
  have hon := h.shape.onScreen
  refine ⟨h.shape.trans h'.shape,h'.nebula.trans h.nebula,fun x y hxy harea => ?_,
    fun x y hxy harea => ?_⟩
  · have hxy' : d'.OnScreen x y := hon ▸ hxy
    rcases harea with harea | harea
    · rw [← hindex,h'.outside x y hxy' (hapart x y harea),hindex,h.inside x y hxy harea]
    · rw [← hindex,h'.inside x y hxy' harea,hindex,
        h.outside x y hxy fun hfirst => hapart x y hfirst harea]
  · have hxy' : d'.OnScreen x y := hon ▸ hxy
    rw [← hindex,h'.outside x y hxy' fun hsecond => harea (.inr hsecond),hindex,
      h.outside x y hxy fun hfirst => harea (.inl hfirst)]

/-- Only what is on the screen counts. -/
theorem Repaints.congr {area area' : ℤ → ℤ → Prop} {paint : Rgb → Rgb}
    (h : Repaints d d' area paint) (heq : ∀ x y, d.OnScreen x y → (area x y ↔ area' x y)) :
    Repaints d d' area' paint where
  shape := h.shape
  nebula := h.nebula
  inside x y hxy harea := h.inside x y hxy ((heq x y hxy).mpr harea)
  outside x y hxy harea := h.outside x y hxy fun harea' => harea ((heq x y hxy).mp harea')

/-! ### Offsets -/

theorem index_fits (hd : d.Valid) (h : d.OnScreen x y) :
    d.index x y + d.bytesPerPixel.toNat ≤ d.backBuffer.length := by
  obtain ⟨⟨hx,hxw⟩,hy,hyh⟩ := h
  have hpixel : y.toNat * d.width.toNat + x.toNat + 1 ≤ d.width.toNat * d.height.toNat := by
    calc y.toNat * d.width.toNat + x.toNat + 1 ≤ y.toNat * d.width.toNat + d.width.toNat := by omega
      _ = d.width.toNat * (y.toNat + 1) := by ring
      _ ≤ d.width.toNat * d.height.toNat := Nat.mul_le_mul_left _ (by omega)
  calc d.index x y + d.bytesPerPixel.toNat
      = (y.toNat * d.width.toNat + x.toNat + 1) * d.bytesPerPixel.toNat := by rw [index]; ring
    _ ≤ d.width.toNat * d.height.toNat * d.bytesPerPixel.toNat := Nat.mul_le_mul_right _ hpixel
    _ ≤ d.backBuffer.length := hd.fits

/-- Different pixels have no byte in common. -/
theorem index_apart {x' y' : ℤ} (h : d.OnScreen x y) (h' : d.OnScreen x' y')
    (hne : ¬(x' = x ∧ y' = y)) :
    d.index x y + d.bytesPerPixel.toNat ≤ d.index x' y' ∨
      d.index x' y' + d.bytesPerPixel.toNat ≤ d.index x y := by
  obtain ⟨⟨hx,hxw⟩,hy,_⟩ := h
  obtain ⟨⟨hx',hxw'⟩,hy',_⟩ := h'
  have horder : y.toNat * d.width.toNat + x.toNat + 1 ≤ y'.toNat * d.width.toNat + x'.toNat ∨
      y'.toNat * d.width.toNat + x'.toNat + 1 ≤ y.toNat * d.width.toNat + x.toNat := by
    rcases lt_trichotomy y.toNat y'.toNat with hlt | heq | hlt
    · have hrow := Nat.mul_le_mul_right d.width.toNat (Nat.succ_le_of_lt hlt)
      rw [Nat.succ_mul] at hrow
      omega
    · rw [heq]
      omega
    · have hrow := Nat.mul_le_mul_right d.width.toNat (Nat.succ_le_of_lt hlt)
      rw [Nat.succ_mul] at hrow
      omega
  rcases horder with hle | hle
  · left
    have hmul := Nat.mul_le_mul_right d.bytesPerPixel.toNat hle
    rwa [Nat.succ_mul] at hmul
  · right
    have hmul := Nat.mul_le_mul_right d.bytesPerPixel.toNat hle
    rwa [Nat.succ_mul] at hmul

theorem asUsize_toNat (h0 : 0 ≤ x) (hlt : x < 2^31) : (asUsize x).toNat = x.toNat := by
  have hmod : x % 2^64 = x := by omega
  rw [asUsize,UInt64.ofInt,hmod,UInt64.toNat_ofNat_of_lt']
  norm_num [UInt64.size]
  omega

section

variable {β : Type} {P : β → Prop} {a b : UInt64} {f : UInt64 → Except Panic β}

theorem bind_addU64 (h : a.toNat + b.toNat < 2^64)
    (hf : ∀ c : UInt64, c.toNat = a.toNat + b.toNat → Returns (f c) P) :
    Returns (addU64 build a b >>= f) P := by
  rw [addU64_ok build h]
  refine hf _ ?_
  rw [UInt64.toNat_add,Nat.mod_eq_of_lt h]

theorem bind_mulU64 (h : a.toNat * b.toNat < 2^64)
    (hf : ∀ c : UInt64, c.toNat = a.toNat * b.toNat → Returns (f c) P) :
    Returns (mulU64 build a b >>= f) P := by
  rw [mulU64_iff.mpr ⟨.inl h,rfl⟩]
  refine hf _ ?_
  rw [UInt64.toNat_mul,Nat.mod_eq_of_lt h]

end

/-- Three bytes are written. -/
theorem writePixel_returns {offset : UInt64} (hlt : d.backBuffer.length < 2^63)
    (hfits : offset.toNat + 3 ≤ d.backBuffer.length) (r g b : UInt8) :
    Returns (d.writePixel build offset r g b) fun d' => d' = {d with backBuffer :=
      ((d.backBuffer.set offset.toNat b).set (offset.toNat + 1) g).set (offset.toNat + 2) r} := by
  have hone : (1 : UInt64).toNat = 1 := rfl
  have htwo : (2 : UInt64).toNat = 2 := rfl
  rw [writePixel,writeByte,if_pos (by omega)]
  refine bind_addU64 (by omega) fun i hi => ?_
  rw [hone] at hi
  rw [writeByte,if_pos (by rw [List.length_set]; omega)]
  refine bind_addU64 (by omega) fun j hj => ?_
  rw [htwo] at hj
  rw [writeByte,if_pos (by simp only [List.length_set]; omega),hi,hj]
  exact Returns.pure rfl

theorem getD_set (l : List UInt8) (i j : ℕ) (v : UInt8) :
    (l.set i v).getD j 0 = if i = j ∧ j < l.length then v else l.getD j 0 := by
  simp only [List.getD_eq_getElem?_getD,List.getElem?_set]
  split_ifs <;> simp_all

theorem pixelAt_set {bytes : List UInt8} {i j : ℕ} (hi : i + 3 ≤ bytes.length) (r g b : UInt8) :
    (j = i → pixelAt (((bytes.set i b).set (i + 1) g).set (i + 2) r) j = ⟨r,g,b⟩) ∧
      (i + 3 ≤ j ∨ j + 3 ≤ i →
        pixelAt (((bytes.set i b).set (i + 1) g).set (i + 2) r) j = pixelAt bytes j) := by
  simp only [pixelAt,getD_set,List.length_set,Rgb.mk.injEq]
  constructor
  · rintro rfl
    refine ⟨if_pos (by omega),?_,?_⟩
    · rw [if_neg (by omega),if_pos (by omega)]
    · rw [if_neg (by omega),if_neg (by omega),if_pos (by omega)]
  · intro hapart
    refine ⟨?_,?_,?_⟩ <;> rw [if_neg (by omega),if_neg (by omega),if_neg (by omega)]

/-- The bytes of one pixel are written. -/
theorem writePixel_repaints {offset : UInt64} (hd : d.Valid) (hxy : d.OnScreen x y)
    (hoffset : offset.toNat = d.index x y) {paint : Rgb → Rgb} {color : Rgb}
    (hcolor : color = paint (pixelAt d.backBuffer (d.index x y))) :
    Returns (d.writePixel build offset color.r color.g color.b) fun d' =>
      Repaints d d' (fun px py => px = x ∧ py = y) paint := by
  have hfits := index_fits hd hxy
  have hbytes := hd.bytes_le
  refine (writePixel_returns hd.length_lt (by omega) _ _ _).mono ?_
  rintro _ rfl
  refine ⟨⟨by simp only [List.length_set],rfl,rfl,rfl⟩,rfl,?_,fun px py hp hne => ?_⟩
  · rintro _ _ _ ⟨rfl,rfl⟩
    rw [hoffset,← hcolor]
    exact (pixelAt_set (by omega) _ _ _).1 rfl
  · have hapart := index_apart hxy hp hne
    rw [hoffset]
    exact (pixelAt_set (by omega) _ _ _).2 (by omega)

theorem readByte_returns {i : UInt64} (h : i.toNat < d.backBuffer.length) :
    Returns (d.readByte i) fun byte => byte = d.backBuffer.getD i.toNat 0 := by
  rw [readByte,dif_pos h,List.getD_eq_getElem?_getD,List.getElem?_eq_getElem h]
  exact Returns.pure rfl

/-- The bytes of one pixel are mixed with a color. -/
theorem mixPixel_repaints {offset : UInt64} (hd : d.Valid) (hxy : d.OnScreen x y)
    (hoffset : offset.toNat = d.index x y) (color : Rgb) {alpha : UInt8} (hfull : alpha ≠ 255)
    (hzero : alpha ≠ 0) :
    Returns (d.mixPixel build offset color.r color.g color.b alpha) fun d' =>
      Repaints d d' (fun px py => px = x ∧ py = y) (color.over alpha) := by
  have hfits := index_fits hd hxy
  have hbytes := hd.bytes_le
  have hlt := hd.length_lt
  have hone : (1 : UInt64).toNat = 1 := rfl
  have htwo : (2 : UInt64).toNat = 2 := rfl
  refine (readByte_returns (by omega)).bind fun bgB hbgB => ?_
  refine bind_addU64 (by omega) fun i hi => ?_
  refine (readByte_returns (by omega)).bind fun bgG hbgG => ?_
  refine bind_addU64 (by omega) fun j hj => ?_
  refine (readByte_returns (by omega)).bind fun bgR hbgR => ?_
  have hcolor : (⟨mix color.r bgR alpha,mix color.g bgG alpha,mix color.b bgB alpha⟩ : Rgb) =
      color.over alpha (pixelAt d.backBuffer (d.index x y)) := by
    rw [Rgb.over,if_neg hfull,if_neg hzero,pixelAt,hbgR,hbgG,hbgB,hi,hj,hone,htwo,hoffset]
  exact writePixel_repaints hd hxy hoffset hcolor

theorem pixelOffset_returns (hd : d.Valid) (hxy : d.OnScreen x y) :
    Returns (d.pixelOffset build x y) fun offset => offset.toNat = d.index x y := by
  have hfits := index_fits hd hxy
  have hlt := hd.length_lt
  have hbytes := hd.bytes_le
  have hwidth := hd.width_lt
  have hheight := hd.height_lt
  obtain ⟨⟨hx,hxw⟩,hy,hyh⟩ := hxy
  have hxn := asUsize_toNat hx (by omega)
  have hyn := asUsize_toNat hy (by omega)
  have hrow : y.toNat * d.width.toNat + x.toNat ≤ d.index x y :=
    Nat.le_mul_of_pos_right _ (by omega)
  refine bind_mulU64 (by rw [hyn]; omega) fun row hrow' => ?_
  rw [hyn] at hrow'
  refine bind_addU64 (by rw [hxn]; omega) fun pixel hpixel => ?_
  rw [hxn,hrow'] at hpixel
  have hindex : pixel.toNat * d.bytesPerPixel.toNat = d.index x y := by rw [hpixel,index]
  refine ⟨_,mulU64_iff.mpr ⟨.inl (by omega),rfl⟩,?_⟩
  show (pixel * d.bytesPerPixel).toNat = d.index x y
  rw [UInt64.toNat_mul,hindex,Nat.mod_eq_of_lt (by omega)]

theorem outside_iff (hd : d.Valid) : d.outside x y = true ↔ ¬d.OnScreen x y := by
  have hwidth := asI32_of_lt hd.width_lt
  have hheight := asI32_of_lt hd.height_lt
  simp only [outside,hwidth,hheight,OnScreen,Bool.or_eq_true,decide_eq_true_eq]
  omega

/-! ### Calls -/

theorem drawPixel_repaints (hd : d.Valid) (x y : ℤ) (color : Rgb) :
    Returns (d.drawPixel build x y color.r color.g color.b) fun d' =>
      Repaints d d' (fun px py => px = x ∧ py = y) fun _ => color := by
  refine Returns.ite (fun hout => Returns.pure ?_) fun hin => ?_
  · refine (Repaints.refl d _).congr fun px py hp => ?_
    rw [false_iff]
    rintro ⟨rfl,rfl⟩
    exact (outside_iff hd).mp hout hp
  · have hxy : d.OnScreen x y := not_not.mp (mt (outside_iff hd).mpr hin)
    refine (pixelOffset_returns hd hxy).bind fun offset hoffset => ?_
    exact writePixel_repaints hd hxy hoffset rfl

/-- A color that is laid over completely, or not at all. -/
theorem over_full (color : Rgb) : color.over 255 = fun _ => color := by
  funext old
  rw [Rgb.over,if_pos rfl]

theorem over_zero (color : Rgb) : color.over 0 = id := by
  funext old
  rw [Rgb.over,if_neg (by decide),if_pos rfl]
  rfl

theorem Repaints.nothing (d : GpuDriver) (area : ℤ → ℤ → Prop) : Repaints d d area id where
  shape := .refl d
  nebula := rfl
  inside _ _ _ _ := rfl
  outside _ _ _ _ := rfl

theorem blendPixel_repaints (hd : d.Valid) (x y : ℤ) (color : Rgb) (alpha : UInt8) :
    Returns (d.blendPixel build x y color.r color.g color.b alpha) fun d' =>
      Repaints d d' (fun px py => px = x ∧ py = y) (color.over alpha) := by
  refine Returns.ite (fun hfull => ?_) fun hfull => Returns.ite (fun hzero => ?_) fun hzero => ?_
  · subst hfull
    rw [over_full]
    exact drawPixel_repaints hd x y color
  · subst hzero
    rw [over_zero]
    exact Returns.pure (.nothing d _)
  · refine Returns.ite (fun hout => Returns.pure ?_) fun hin => ?_
    · refine (Repaints.refl d _).congr fun px py hp => ?_
      rw [false_iff]
      rintro ⟨rfl,rfl⟩
      exact (outside_iff hd).mp hout hp
    · have hxy : d.OnScreen x y := not_not.mp (mt (outside_iff hd).mpr hin)
      refine (pixelOffset_returns hd hxy).bind fun offset hoffset => ?_
      exact mixPixel_repaints hd hxy hoffset color hfull hzero

/-- A loop whose rounds paint areas that do not overlap. -/
theorem foldlM_range_repaints {n : ℕ} {f : GpuDriver → ℕ → Except Panic GpuDriver}
    (area : ℕ → ℤ → ℤ → Prop) {paint : Rgb → Rgb} (hd : d.Valid)
    (h : ∀ k < n, ∀ d', SameShape d d' → d'.Valid →
      Returns (f d' k) fun d'' => Repaints d' d'' (area k) paint)
    (hapart : ∀ k k' x y, k < k' → area k x y → ¬area k' x y) :
    Returns ((List.range n).foldlM f d) fun d' =>
      Repaints d d' (fun x y => ∃ k < n, area k x y) paint := by
  refine Returns.foldlM_range (I := fun n d' =>
    Repaints d d' (fun x y => ∃ k < n, area k x y) paint) (fun n hn d' hd' => ?_) ?_
  · refine (h n hn d' hd'.shape (hd'.valid hd)).mono fun d'' hd'' => ?_
    refine (hd'.trans hd'' ?_).congr fun x y _ => ?_
    · rintro x y ⟨k,hk,harea⟩
      exact hapart k n x y hk harea
    · simp only [Nat.lt_succ_iff_lt_or_eq,or_and_right,exists_or,exists_eq_left]
  · exact (Repaints.refl d paint).congr fun x y _ => by simp

theorem foldlM_repaints {lo hi : ℤ} {f : GpuDriver → ℤ → Except Panic GpuDriver}
    (area : ℤ → ℤ → ℤ → Prop) {paint : Rgb → Rgb} (hd : d.Valid)
    (h : ∀ k, lo ≤ k → k < hi → ∀ d', SameShape d d' → d'.Valid →
      Returns (f d' k) fun d'' => Repaints d' d'' (area k) paint)
    (hapart : ∀ k k' x y, k < k' → area k x y → ¬area k' x y) :
    Returns ((rangeI32 lo hi).foldlM f d) fun d' =>
      Repaints d d' (fun x y => ∃ k, (lo ≤ k ∧ k < hi) ∧ area k x y) paint := by
  rw [rangeI32,List.foldlM_map]
  refine (foldlM_range_repaints (fun k => area (lo + k)) hd
    (fun k hk => h (lo + k) (by omega) (by omega))
    fun k k' x y hk => hapart _ _ x y (by omega)).mono fun d' hd' => hd'.congr fun x y _ => ?_
  constructor
  · rintro ⟨k,hk,harea⟩
    exact ⟨lo + k,by omega,harea⟩
  · rintro ⟨k,hk,harea⟩
    refine ⟨(k - lo).toNat,by omega,?_⟩
    rwa [show lo + ((k - lo).toNat : ℤ) = k by omega]

/-- One row of a rectangle. -/
theorem glassRow_repaints (hd : d.Valid) {row : UInt64} {left right py : ℤ} (hleft : 0 ≤ left)
    (hright : right ≤ d.width.toNat) (hpy : 0 ≤ py ∧ py < d.height.toNat)
    (hrow : row.toNat = y.toNat * d.width.toNat * d.bytesPerPixel.toNat) (hy : y = py)
    (color : Rgb) {alpha : UInt8} (hzero : alpha ≠ 0) :
    Returns ((rangeI32 left right).foldlM (fun d px => do
      let offset ← addU64 build row (← mulU64 build (asUsize px) d.bytesPerPixel)
      if alpha = 255 then d.writePixel build offset color.r color.g color.b
      else d.mixPixel build offset color.r color.g color.b alpha) d) fun d' =>
        Repaints d d' (fun x y => (left ≤ x ∧ x < right) ∧ y = py) (color.over alpha) := by
  subst hy
  refine (foldlM_repaints (fun px x' y' => x' = px ∧ y' = y) hd
    (fun px hlo hhi d' hshape hd' => ?_) fun k k' x' y' hk h h' => by omega).mono
      fun d' hd' => hd'.congr fun x' y' _ => ?_
  · have hxy : d'.OnScreen px y := by
      rw [hshape.onScreen]
      exact ⟨⟨by omega,by omega⟩,hpy⟩
    have hfits := index_fits hd' hxy
    have hlt := hd'.length_lt
    have hwidth := hd.width_lt
    have hpx := asUsize_toNat (x := px) (by omega) (by omega)
    have hindex : d'.index px y = row.toNat + px.toNat * d'.bytesPerPixel.toNat := by
      rw [hrow,index,hshape.width,hshape.bytesPerPixel]
      ring
    refine bind_mulU64 (by rw [hpx]; omega) fun column hcolumn => ?_
    rw [hpx] at hcolumn
    refine bind_addU64 (by omega) fun offset hoffset => ?_
    have hoffset' : offset.toNat = d'.index px y := by rw [hoffset,hcolumn,hindex]
    refine Returns.ite (fun hfull => ?_) fun hfull => ?_
    · subst hfull
      rw [over_full]
      exact writePixel_repaints hd' hxy hoffset' rfl
    · exact mixPixel_repaints hd' hxy hoffset' color hfull hzero
  · constructor
    · rintro ⟨k,hk,rfl,rfl⟩
      exact ⟨hk,rfl⟩
    · rintro ⟨hx,rfl⟩
      exact ⟨x',hx,rfl,rfl⟩

theorem drawGlassRect_repaints (hd : d.Valid) {w h : ℤ}
    (hright : -2147483648 ≤ x + w ∧ x + w < 2147483648)
    (hbottom : -2147483648 ≤ y + h ∧ y + h < 2147483648) (color : Rgb) (alpha : UInt8) :
    Returns (d.drawGlassRect build x y w h color.r color.g color.b alpha) fun d' =>
      Repaints d d' (fun px py => (x ≤ px ∧ px < x + w) ∧ y ≤ py ∧ py < y + h)
        (color.over alpha) := by
  have hwidth := hd.width_lt
  have hheight := hd.height_lt
  refine Returns.ite (fun hzero => ?_) fun hzero => ?_
  · subst hzero
    rw [over_zero]
    exact Returns.pure (.nothing d _)
  rw [asI32_of_lt hwidth,asI32_of_lt hheight]
  refine Returns.bind_i32 hright.1 hright.2 (Returns.bind_i32 hbottom.1 hbottom.2 ?_)
  refine Returns.ite (fun hempty => Returns.pure ?_) fun hsome => ?_
  · refine (Repaints.refl d _).congr fun px py hp => ?_
    obtain ⟨⟨hpx,hpxw⟩,hpy,hpyh⟩ := hp
    rw [false_iff]
    omega
  refine (foldlM_repaints (fun py x' y' =>
    (max 0 x ≤ x' ∧ x' < min (x + w) d.width.toNat) ∧ y' = py) hd
    (fun py hlo hhi d' hshape hd' => ?_) fun k k' x' y' hk h h' => by omega).mono
      fun d' hd' => hd'.congr fun px py hp => ?_
  · have hxy : d'.OnScreen (max 0 x) py := by
      rw [hshape.onScreen]
      exact ⟨⟨by omega,by omega⟩,by omega,by omega⟩
    have hfits := index_fits hd' hxy
    have hlt := hd'.length_lt
    have hbytes := hd'.bytes_le
    have hpy := asUsize_toNat (x := py) (by omega) (by omega)
    have hline : py.toNat * d'.width.toNat * d'.bytesPerPixel.toNat ≤ d'.index (max 0 x) py := by
      rw [index]
      exact Nat.mul_le_mul_right _ (Nat.le_add_right _ _)
    have hrow : py.toNat * d'.width.toNat ≤ py.toNat * d'.width.toNat * d'.bytesPerPixel.toNat :=
      Nat.le_mul_of_pos_right _ (by omega)
    refine bind_mulU64 (by rw [hpy]; omega) fun lines hlines => ?_
    rw [hpy] at hlines
    refine bind_mulU64 (by rw [hlines]; omega) fun row hrow' => ?_
    rw [hlines] at hrow'
    refine glassRow_repaints hd' (by omega) ?_ ?_ hrow' rfl color hzero
    · rw [hshape.width]
      omega
    · rw [hshape.height]
      omega
  · obtain ⟨⟨hpx,hpxw⟩,hpy,hpyh⟩ := hp
    constructor
    · rintro ⟨k,hk,harea,rfl⟩
      omega
    · rintro ⟨hx,hy⟩
      exact ⟨py,by omega,by omega,rfl⟩

/-- Whole groups of four bytes are overwritten at once. -/
theorem clearGroups_repaints (hd : d.Valid) (hbytes : d.bytesPerPixel = 4) (color : Rgb) :
    Repaints d {d with backBuffer := d.backBuffer.mapIdx fun i old =>
      if i < d.backBuffer.length / 4 * 4 then [color.b,color.g,color.r,255].getD (i % 4) 0 else old}
      (fun _ _ => True) fun _ => color := by
  refine ⟨⟨List.length_mapIdx,rfl,rfl,rfl⟩,rfl,fun x y hxy _ => ?_,fun x y _ h => absurd trivial h⟩
  have hfits := index_fits hd hxy
  have hfour : d.bytesPerPixel.toNat = 4 := by rw [hbytes]; rfl
  have hindex : d.index x y = (y.toNat * d.width.toNat + x.toNat) * 4 := by rw [index,hfour]
  rw [hindex] at hfits ⊢
  generalize y.toNat * d.width.toNat + x.toNat = k at hfits
  have hbyte (i : ℕ) (hi : i < 4) : (d.backBuffer.mapIdx fun i old =>
      if i < d.backBuffer.length / 4 * 4 then [color.b,color.g,color.r,255].getD (i % 4) 0
      else old).getD (k * 4 + i) 0 = [color.b,color.g,color.r,255].getD i 0 := by
    have hlt : k * 4 + i < d.backBuffer.length := by omega
    have hmod : (k * 4 + i) % 4 = i := by omega
    rw [List.getD_eq_getElem?_getD,List.getElem?_mapIdx,List.getElem?_eq_getElem hlt,
      Option.map_some,if_pos (by omega),hmod]
    rfl
  rw [pixelAt,hbyte 2 (by decide),hbyte 1 (by decide)]
  exact congrArg (Rgb.mk color.r color.g) (hbyte 0 (by decide))

theorem clearScreen_repaints (hd : d.Valid) (color : Rgb) :
    Returns (d.clearScreen build color.r color.g color.b) fun d' =>
      Repaints d d' (fun _ _ => True) fun _ => color := by
  refine Returns.ite (fun hfour => Returns.pure (clearGroups_repaints hd hfour color)) fun _ => ?_
  refine (foldlM_range_repaints (fun row _ y => y = row) hd
    (fun row hrow d' hshape hd' => ?_) fun k k' x y hk h h' => by omega).mono
      fun d' hd' => hd'.congr fun x y hxy => iff_of_true ?_ trivial
  · refine (foldlM_range_repaints (fun column x y => x = column ∧ y = row) hd'
      (fun column hcolumn d'' hshape' hd'' => ?_) fun k k' x y hk h h' => by omega).mono
        fun d'' hd'' => hd''.congr fun x y hxy => ?_
    · have hwidth := hd'.width_lt
      have hheight := hd.height_lt
      rw [asI32_of_lt (n := column) (by omega),asI32_of_lt (n := row) (by omega)]
      exact drawPixel_repaints hd'' _ _ color
    · obtain ⟨hx,_⟩ := hxy
      constructor
      · rintro ⟨_,_,_,hy⟩
        exact hy
      · exact fun hy => ⟨x.toNat,by omega,by omega,hy⟩
  · obtain ⟨_,hy,hyh⟩ := hxy
    exact ⟨y.toNat,by omega,by omega⟩

theorem Repaints.shows {c : Canvas} {area : ℤ → ℤ → Bool} {paint : Rgb → Rgb}
    (h : Repaints d d' (fun x y => area x y = true) paint) (hc : d.Shows c) :
    d'.Shows {c with
      picture := fun x y => if area x y then paint (c.picture x y) else c.picture x y} := by
  intro x y hxy
  rw [h.shape.onScreen] at hxy
  obtain ⟨hpicture,hwallpaper⟩ := hc x y hxy
  rw [h.shape.index,h.nebula]
  refine ⟨?_,hwallpaper⟩
  dsimp only
  split
  · rename_i harea
    rw [h.inside x y hxy harea,hpicture]
  · rename_i harea
    rw [h.outside x y hxy harea,hpicture]

/-- One call paints the picture. -/
theorem draw_shows {c : Canvas} (hd : d.Valid) (hc : d.Shows c) {call : DrawCall}
    (hrange : call.InRange) : Returns (d.draw build call) fun d' =>
      SameShape d d' ∧ d'.Valid ∧ d'.Shows (c.paint call) := by
  cases call with
  | saveToNebulaCache =>
    refine ⟨_,if_pos hd.nebula_length,⟨rfl,rfl,rfl,rfl⟩,?_,fun x y hxy => ?_⟩
    · exact ⟨hd.width_lt,hd.height_lt,hd.bytes_le,hd.fits,rfl,hd.length_lt⟩
    · exact ⟨(hc x y hxy).1,(hc x y hxy).1⟩
  | restoreFromNebulaCache =>
    refine ⟨_,if_pos hd.nebula_length.symm,⟨hd.nebula_length,rfl,rfl,rfl⟩,?_,fun x y hxy => ?_⟩
    · exact ⟨hd.width_lt,hd.height_lt,hd.bytes_le,hd.fits.trans hd.nebula_length.ge,rfl,
        hd.nebula_length.trans_lt hd.length_lt⟩
    · exact ⟨(hc x y hxy).2,(hc x y hxy).2⟩
  | clearScreen r g b =>
    refine (clearScreen_repaints hd ⟨r,g,b⟩).mono fun d' h => ⟨h.shape,h.valid hd,?_⟩
    refine Repaints.shows (h.congr fun _ _ _ => ?_) hc
    simp [DrawCall.covers]
  | drawGlassRect x y w h r g b alpha =>
    refine (drawGlassRect_repaints hd hrange.1 hrange.2 ⟨r,g,b⟩ alpha).mono
      fun d' hp => ⟨hp.shape,hp.valid hd,?_⟩
    refine Repaints.shows (hp.congr fun _ _ _ => ?_) hc
    simp only [DrawCall.covers,decide_eq_true_eq,and_assoc]
  | drawPixel x y r g b =>
    refine (drawPixel_repaints hd x y ⟨r,g,b⟩).mono fun d' h => ⟨h.shape,h.valid hd,?_⟩
    refine Repaints.shows (h.congr fun _ _ _ => ?_) hc
    simp only [DrawCall.covers,decide_eq_true_eq]
  | blendPixel x y r g b alpha =>
    refine (blendPixel_repaints hd x y ⟨r,g,b⟩ alpha).mono fun d' h => ⟨h.shape,h.valid hd,?_⟩
    refine Repaints.shows (h.congr fun _ _ _ => ?_) hc
    simp only [DrawCall.covers,decide_eq_true_eq]

theorem draws_show {c : Canvas} (hd : d.Valid) (hc : d.Shows c) {calls : List DrawCall}
    (hrange : ∀ call ∈ calls, call.InRange) : Returns (calls.foldlM (draw build) d) fun d' =>
      SameShape d d' ∧ d'.Valid ∧ d'.Shows (c.paintAll calls) := by
  induction calls generalizing d c with
  | nil => exact Returns.pure ⟨.refl d,hd,hc⟩
  | cons call calls ih =>
    rw [List.foldlM_cons]
    refine (draw_shows hd hc (hrange call List.mem_cons_self)).bind fun d' h => ?_
    refine (ih h.2.1 h.2.2 fun call hcall => hrange call (List.mem_cons_of_mem _ hcall)).mono ?_
    exact fun d'' h' => ⟨h.1.trans h'.1,h'.2⟩

end GpuDriver
end PolymorphOS
