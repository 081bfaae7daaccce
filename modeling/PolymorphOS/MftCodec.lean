import PolymorphOS.Mfs

/-! The text format of the Master File Table: what block 0 reads back as after a table
was written, whether it fits in the block or was cut. -/
namespace PolymorphOS
namespace Mfs

open Kernel RustStr

/-- Free of the format's delimiters. -/
structure Clean (name : List Char) : Prop where
  colon : ':' ∉ name
  newline : '\n' ∉ name
  nul : '\x00' ∉ name

instance (name : List Char) : Decidable (Clean name) :=
  decidable_of_iff (':' ∉ name ∧ '\n' ∉ name ∧ '\x00' ∉ name)
    ⟨fun h => ⟨h.1,h.2.1,h.2.2⟩,fun h => ⟨h.1,h.2,h.3⟩⟩

def AllClean (entries : List FileEntry) : Prop := ∀ e ∈ entries, Clean e.name

/-- The length of the table's text in bytes. -/
def tableSize (entries : List FileEntry) : ℕ := (Utf8.encode (tableText entries)).length

theorem not_mem_formatU64 {c : Char} (n : UInt64) (hc : c.isDigit = false) : c ∉ formatU64 n :=
  fun h => absurd (formatU64_digits n c h) (by simp [hc])

theorem not_mem_formatEntry {e : FileEntry} {c : Char} (hn : c ∉ e.name) (hd : c.isDigit = false)
    (hc : c ≠ ':') : c ∉ formatEntry e := by
  simp [formatEntry,hn,hc,not_mem_formatU64 _ hd]

theorem getLast?_formatEntry (e : FileEntry) : (formatEntry e).getLast? ≠ some '\r' := by
  intro h
  have hm : (formatEntry e).getLast? = (formatU64 e.blockCount).getLast? := by
    rw [formatEntry,List.getLast?_append_of_ne_nil _ (by simp),List.getLast?_cons_of_ne_nil (by simp),
      List.getLast?_append_of_ne_nil _ (by simp),List.getLast?_cons_of_ne_nil (formatU64_ne_nil _)]
  rw [hm] at h
  exact not_mem_formatU64 e.blockCount (by decide) (List.mem_of_getLast? h)

/-- Names read from the disk never hold a delimiter. -/
theorem parseMft_clean (b : Block) : AllClean (parseMft b) := by
  intro e he
  simp only [parseMft] at he
  split at he
  swap
  · cases he
  obtain ⟨line,hline,he⟩ := List.mem_filterMap.mp he
  have hl := mem_lines (List.mem_of_mem_drop hline)
  have hname : e.name ∈ line.splitOn ':' := by
    obtain ⟨parts,hp,he⟩ := Option.bind_eq_some_iff.mp he
    have hn : e.name = parts.1 := by
      simp only [parseParts,Option.bind_eq_bind,Option.bind_eq_some_iff,Option.pure_def,
        Option.some.injEq] at he
      obtain ⟨_,_,_,_,rfl⟩ := he
      rfl
    unfold lineParts at hp
    split at hp
    · rename_i hs
      cases hp
      rw [hs,hn]
      exact List.mem_cons_self
    · cases hp
  have hm := not_mem_of_mem_splitOn hname
  refine ⟨hm.1,fun h => hl.1 (hm.2 _ h),fun h => ?_⟩
  have hnul := List.mem_takeWhile_imp (hl.2 _ (hm.2 _ h))
  exact absurd hnul (by decide)

theorem lineParts_joined {name start count : List Char} (hn : ':' ∉ name) (hs : ':' ∉ start)
    (hc : ':' ∉ count) : lineParts (name ++ ':'::(start ++ ':'::count)) = some (name,start,count) := by
  rw [lineParts,List.splitOn_append_cons_self_of_not_mem hn,
    List.splitOn_append_cons_self_of_not_mem hs,List.splitOn_eq_singleton hc]

/-- Writing and reading one line. -/
theorem parseLine_formatEntry {e : FileEntry} (h : ':' ∉ e.name) :
    parseLine (formatEntry e) = some e := by
  rw [parseLine,formatEntry,lineParts_joined h (not_mem_formatU64 _ (by decide))
    (not_mem_formatU64 _ (by decide))]
  simp [parseParts]

theorem prefix_append_cons {A : Type*} {a b p : List A} {c : A} (h : p <+: a ++ c::b) :
    p <+: a ∨ ∃ q, p = a ++ c::q ∧ q <+: b := by
  induction a generalizing p with
  | nil =>
    cases p with
    | nil => exact .inl (List.nil_prefix)
    | cons d q =>
      obtain ⟨rfl,hq⟩ := List.cons_prefix_cons.mp h
      exact .inr ⟨q,rfl,hq⟩
  | cons d a ih =>
    cases p with
    | nil => exact .inl (List.nil_prefix)
    | cons d' q =>
      obtain ⟨rfl,hq⟩ := List.cons_prefix_cons.mp h
      rcases ih hq with hq | ⟨r,rfl,hr⟩
      · exact .inl (List.cons_prefix_cons.mpr ⟨rfl,hq⟩)
      · exact .inr ⟨r,rfl,hr⟩

/-- A line cut short is lost, or keeps its name and start and reads another count. -/
theorem parseLine_prefix {e : FileEntry} {p : List Char} (h : ':' ∉ e.name)
    (hp : p <+: formatEntry e) : ∀ e' ∈ parseLine p, e'.name = e.name ∧ e'.startLba = e.startLba ∧
      (p ≠ formatEntry e → e'.blockCount ≠ e.blockCount) := by
  intro e' he'
  have hstart : ':' ∉ formatU64 e.startLba := not_mem_formatU64 _ (by decide)
  rcases prefix_append_cons hp with hp | ⟨q,rfl,hq⟩
  · have hs := List.splitOn_eq_singleton (fun hm => h (hp.subset hm))
    simp [parseLine,lineParts,hs] at he'
  rcases prefix_append_cons hq with hq | ⟨count,rfl,hcount⟩
  · have hs := List.splitOn_eq_singleton (fun hm => hstart (hq.subset hm))
    simp [parseLine,lineParts,List.splitOn_append_cons_self_of_not_mem h,hs] at he'
  · have hcolon : ':' ∉ count := fun hm => not_mem_formatU64 e.blockCount (by decide) (hcount.subset hm)
    rw [parseLine,lineParts_joined h hstart hcolon] at he'
    simp only [Option.bind_some,parseParts,parseU64_formatU64,Option.bind_eq_bind,Option.pure_def,
      Option.mem_def,Option.bind_eq_some_iff,Option.some.injEq] at he'
    obtain ⟨n,hn,rfl⟩ := he'
    refine ⟨rfl,rfl,fun hne heq => ?_⟩
    obtain ⟨tail,htail⟩ := hcount
    refine parseU64_ne_of_prefix htail ?_ (heq ▸ hn)
    rintro rfl
    rw [List.append_nil] at htail
    exact hne (by rw [formatEntry,htail])

theorem mftText_ofData {s : List Char} (hs : '\x00' ∉ s) (h : (Utf8.encode s).length ≤ 4096) :
    mftText (.ofData (Utf8.encode s)) = s := by
  have hb : (Block.ofData (Utf8.encode s)).1 =
      Utf8.encode (s ++ List.replicate (4096 - (Utf8.encode s).length) '\x00') := by
    rw [Block.ofData_bytes h,Utf8.encode_append,Utf8.encode_replicate_nul]
  rw [mftText,hb,Utf8.decode_encode,Option.getD_some,List.takeWhile_append_of_pos]
  · simp
  · intro c hc
    simpa using fun he : c = '\x00' => hs (he ▸ hc)

theorem tableText_eq (entries : List FileEntry) :
    tableText entries = (magicText::entries.map formatEntry).flatMap (· ++ ['\n']) := by
  simp [tableText,List.flatMap_map]

theorem nul_not_mem_tableText {entries : List FileEntry} (h : AllClean entries) :
    '\x00' ∉ tableText entries := by
  rw [tableText_eq]
  intro hm
  obtain ⟨line,hl,hm⟩ := List.mem_flatMap.mp hm
  rcases List.mem_cons.mp hl with rfl | hl
  · exact absurd hm (by decide)
  · obtain ⟨e,he,rfl⟩ := List.mem_map.mp hl
    have hn := not_mem_formatEntry (h e he).nul (by decide) (by decide)
    simp [hn] at hm

/-- The lines of a table's text, the last of them possibly cut. -/
theorem lines_table {entries : List FileEntry} (h : AllClean entries) {last : List Char}
    (hlast : '\n' ∉ last) : lines ((tableText entries) ++ last) =
      magicText::(entries.map formatEntry ++ if last = [] then [] else [last]) := by
  rw [tableText_eq,lines_terminated _ _ _ hlast,List.cons_append]
  intro line hl
  rcases List.mem_cons.mp hl with rfl | hl
  · decide
  · obtain ⟨e,he,rfl⟩ := List.mem_map.mp hl
    exact ⟨not_mem_formatEntry (h e he).newline (by decide) (by decide),getLast?_formatEntry e⟩

/-- A block that holds the lines of clean entries and the beginning of one more line. -/
theorem parseMft_of_text {b : Block} {entries : List FileEntry} (h : AllClean entries)
    {last : List Char} (hlast : '\n' ∉ last) (hb : mftText b = tableText entries ++ last) :
    parseMft b = entries ++ (parseLine last).toList := by
  have hmagic : magicText.isPrefixOf (tableText entries ++ last) = true := by
    rw [List.isPrefixOf_iff_prefix,tableText,List.append_assoc]
    exact List.prefix_append _ _
  have hlines : (entries.map formatEntry).filterMap parseLine = entries := by
    rw [List.filterMap_map]
    calc entries.filterMap (parseLine ∘ formatEntry) = entries.filterMap some :=
          List.filterMap_congr fun e he => parseLine_formatEntry (h e he).colon
      _ = entries := List.filterMap_some
  simp only [parseMft,hb,hmagic,if_true,lines_table h hlast,List.drop_succ_cons,List.drop_zero,
    List.filterMap_append,hlines]
  congr 1
  split
  · rename_i he
    rw [he]
    rfl
  · cases hp : parseLine last <;> simp [hp]

theorem parseLine_nil : parseLine [] = none := rfl

theorem mftText_mftBlock {entries : List FileEntry} (hnul : '\x00' ∉ tableText entries)
    (hfit : tableSize entries ≤ 4096) : mftText (mftBlock entries) = tableText entries := by
  rw [mftBlock,List.take_of_length_le hfit]
  exact mftText_ofData hnul hfit

/-- A table that fits reads back as it was written, and the converse: a delimiter in a
name is lost with what it delimits. -/
theorem parseMft_mftBlock {entries : List FileEntry} (hfit : tableSize entries ≤ 4096) :
    parseMft (mftBlock entries) = entries ↔ AllClean entries := by
  constructor
  · intro h
    rw [← h]
    exact parseMft_clean _
  · intro h
    have ht := mftText_mftBlock (nul_not_mem_tableText h) hfit
    rw [← List.append_nil (tableText entries)] at ht
    rw [parseMft_of_text h (List.not_mem_nil) ht,parseLine_nil,Option.toList_none,List.append_nil]

theorem tableText_append (entries entries' : List FileEntry) : tableText (entries ++ entries') =
    tableText entries ++ (entries'.map formatEntry).flatMap (· ++ ['\n']) := by
  simp [tableText,List.flatMap_map]

/-- One byte too many costs the table its last newline only, and a line is still read. -/
theorem parseMft_mftBlock_of_clean {entries : List FileEntry} (h : AllClean entries)
    (hfit : tableSize entries ≤ 4097) : parseMft (mftBlock entries) = entries := by
  rcases Nat.lt_or_ge (tableSize entries) 4097 with hlt | hge
  · exact (parseMft_mftBlock (by omega)).mpr h
  have hsize : tableSize entries = 4097 := le_antisymm hfit hge
  cases entries using List.reverseRecOn with
  | nil =>
    have hnil : tableSize [] = 7 := by decide
    omega
  | append_singleton init last =>
    have hinit : AllClean init := fun e he => h e (by simp [he])
    have htext : tableText (init ++ [last]) = (tableText init ++ formatEntry last) ++ ['\n'] := by
      simp [tableText_append]
    have hlen : (Utf8.encode (tableText init ++ formatEntry last)).length = 4096 := by
      have hnl : (Utf8.encode ['\n']).length = 1 := rfl
      rw [tableSize,htext,Utf8.encode_append,List.length_append,hnl] at hsize
      omega
    have hb : mftBlock (init ++ [last]) = .ofData (Utf8.encode (tableText init ++ formatEntry last)) := by
      rw [mftBlock,htext,Utf8.encode_append _ ['\n'],List.take_append_of_le_length hlen.ge,
        List.take_of_length_le hlen.le]
    have hnul : '\x00' ∉ tableText init ++ formatEntry last := fun hm =>
      nul_not_mem_tableText h (by rw [htext]; exact List.mem_append_left _ hm)
    have hnl : '\n' ∉ formatEntry last :=
      not_mem_formatEntry (h last (by simp)).newline (by decide) (by decide)
    have ht := mftText_ofData hnul hlen.le
    rw [← hb] at ht
    rw [parseMft_of_text hinit hnl ht,parseLine_formatEntry (h last (by simp)).colon]
    rfl

/-- A prefix of terminated lines is some of the lines and a piece of the next. -/
theorem prefix_terminated {ls : List (List Char)} {t : List Char}
    (h : t <+: ls.flatMap (· ++ ['\n'])) : t = ls.flatMap (· ++ ['\n']) ∨
      ∃ k last, ∃ hk : k < ls.length, t = (ls.take k).flatMap (· ++ ['\n']) ++ last ∧ last <+: ls[k] := by
  induction ls generalizing t with
  | nil => exact .inl (List.prefix_nil.mp h)
  | cons l ls ih =>
    rw [List.flatMap_cons,List.append_assoc] at h
    rcases prefix_append_cons h with hl | ⟨q,rfl,hq⟩
    · exact .inr ⟨0,t,Nat.succ_pos _,rfl,hl⟩
    · rcases ih hq with rfl | ⟨k,last,hk,rfl,hlast⟩
      · exact .inl (by simp)
      · exact .inr ⟨k+1,last,Nat.succ_lt_succ hk,by simp,hlast⟩

/-- What is left of a table that was cut: nothing that decodes, or its first lines and a
piece of the next, which falls short of that line if it is the last. -/
theorem mftText_truncated {entries : List FileEntry} (h : AllClean entries)
    (hlong : 4097 < tableSize entries) : mftText (mftBlock entries) = [] ∨
      ∃ k, ∃ hk : k < entries.length, ∃ last,
        mftText (mftBlock entries) = tableText (entries.take k) ++ last ∧
        last <+: formatEntry entries[k] ∧ (k + 1 = entries.length → last ≠ formatEntry entries[k]) := by
  have hlen : ((Utf8.encode (tableText entries)).take 4096).length = 4096 := by
    rw [List.length_take]
    exact min_eq_left (by rw [tableSize] at hlong; omega)
  have hbytes : (mftBlock entries).1 = (Utf8.encode (tableText entries)).take 4096 := by
    rw [mftBlock,Block.ofData_bytes hlen.le,hlen,Nat.sub_self,List.replicate_zero,List.append_nil]
  cases hd : Utf8.decode (mftBlock entries).1 with
  | none =>
    left
    rw [mftText,hd,Option.getD_none,List.takeWhile_nil]
  | some t =>
    right
    have henc : Utf8.encode t = (Utf8.encode (tableText entries)).take 4096 := by
      rw [Utf8.encode_of_decode hd,hbytes]
    have hsize : (Utf8.encode t).length = 4096 := by rw [henc,hlen]
    have hpre : t <+: tableText entries :=
      Utf8.prefix_of_encode_prefix (henc ▸ List.take_prefix _ _)
    have htext : mftText (mftBlock entries) = t := by
      rw [mftText,hd,Option.getD_some,List.takeWhile_eq_self_iff]
      intro c hc
      simpa using fun he : c = '\x00' => nul_not_mem_tableText h (hpre.subset (he ▸ hc))
    -- the cut falls behind the magic line
    have hmagic : tableText [] <+: t := by
      apply Utf8.prefix_of_encode_prefix
      rw [henc,List.prefix_take_iff]
      refine ⟨?_,by decide⟩
      rw [← List.nil_append entries,tableText_append,Utf8.encode_append]
      exact List.prefix_append _ _
    obtain ⟨body,rfl⟩ := hmagic
    rw [← List.nil_append entries,tableText_append,List.prefix_append_right_inj] at hpre
    rcases prefix_terminated hpre with rfl | ⟨k,last,hk,rfl,hlast⟩
    · rw [← tableText_append,List.nil_append] at hsize
      rw [tableSize] at hlong
      omega
    rw [List.getElem_map] at hlast
    rw [List.length_map] at hk
    rw [← List.map_take,← List.append_assoc,← tableText_append,List.nil_append] at htext hsize
    refine ⟨k,hk,last,htext,hlast,fun hk' => ?_⟩
    rintro rfl
    -- otherwise only the last newline was cut, at 4097 bytes
    have hfull : tableText entries = (tableText (entries.take k) ++ formatEntry entries[k]) ++ ['\n'] := by
      have hsplit := List.take_succ_eq_append_getElem hk
      rw [List.take_of_length_le hk'.ge] at hsplit
      refine (congrArg tableText hsplit).trans ?_
      rw [tableText_append]
      simp only [List.map_cons,List.map_nil,List.flatMap_cons,List.flatMap_nil,List.append_nil,
        List.append_assoc]
    have hone : (Utf8.encode ['\n']).length = 1 := rfl
    rw [tableSize,hfull,Utf8.encode_append _ ['\n'],List.length_append,hsize,hone] at hlong
    omega

/-- A table that was cut reads as empty, or as its first entries and at most one more,
with the name and start of the next; if that one is the last, its count is wrong. -/
theorem parseMft_truncated {entries : List FileEntry} (h : AllClean entries)
    (hlong : 4097 < tableSize entries) : parseMft (mftBlock entries) = [] ∨
      ∃ k, ∃ hk : k < entries.length, ∃ tail : Option FileEntry,
        parseMft (mftBlock entries) = entries.take k ++ tail.toList ∧
        ∀ e ∈ tail, e.name = entries[k].name ∧ e.startLba = entries[k].startLba ∧
          (k + 1 = entries.length → e.blockCount ≠ entries[k].blockCount) := by
  rcases mftText_truncated h hlong with hnil | ⟨k,hk,last,htext,hlast,hshort⟩
  · left
    simp only [parseMft,hnil]
    rfl
  have hclean := h _ (List.getElem_mem hk)
  have hnl : '\n' ∉ last := fun hm =>
    not_mem_formatEntry hclean.newline (by decide) (by decide) (hlast.subset hm)
  have hparse := parseMft_of_text (fun e he => h e (List.mem_of_mem_take he)) hnl htext
  refine .inr ⟨k,hk,parseLine last,hparse,fun e he => ?_⟩
  obtain ⟨hname,hstart,hcount⟩ := parseLine_prefix hclean.colon hlast e he
  exact ⟨hname,hstart,fun hk' => hcount (hshort hk')⟩

end Mfs
end PolymorphOS
