import PolymorphOS.MfsRuns

/-! The two ways from a name to an entry: `find_file` compares names trimmed and up to
ASCII case, `delete_file` and `rename_file` compare them as they are. -/
namespace PolymorphOS
namespace Mfs

open Kernel NvmeController RustStr

/-- Equal for `find_file`. -/
def sameName (a b : List Char) : Bool := eqIgnoreAsciiCase (trim a) (trim b)

theorem sameName_refl (a : List Char) : sameName a a = true := by
  simp [sameName,eqIgnoreAsciiCase]

/-- The entries behind the first line, whatever that line says. -/
def looseEntries (mftBuffer : Block) : List FileEntry :=
  ((lines (mftText mftBuffer)).drop 1).filterMap parseLine

theorem parseParts_name {parts : List Char × List Char × List Char} {entry : FileEntry}
    (h : parseParts parts = some entry) : entry.name = parts.1 := by
  obtain ⟨lba,_,h⟩ := Option.bind_eq_some_iff.mp h
  obtain ⟨count,_,h⟩ := Option.bind_eq_some_iff.mp h
  cases h
  rfl

/-- `find_file` finds the first entry of the same name: a line of that name that does not
parse is as good as none. -/
theorem lookup_eq_find? (mftBuffer : Block) (name : List Char) :
    lookup mftBuffer name = (looseEntries mftBuffer).find? fun e => sameName e.name name := by
  rw [lookup,looseEntries]
  induction (lines (mftText mftBuffer)).drop 1 with
  | nil => rfl
  | cons line rest ih =>
    rw [List.findSome?_cons,List.filterMap_cons,ih]
    cases hparts : lineParts line with
    | none =>
      have hline : parseLine line = none := by rw [parseLine,hparts,Option.bind_none]
      simp only [hline,Option.bind_eq_bind,Option.bind_none]
    | some parts =>
      have hline : parseLine line = parseParts parts := by rw [parseLine,hparts,Option.bind_some]
      have hsame : eqIgnoreAsciiCase (trim parts.1) (trim name) = sameName parts.1 name := rfl
      simp only [hline,Option.bind_eq_bind,Option.bind_some,hsame]
      cases hentry : parseParts parts with
      | none => simp only [ite_self]
      | some entry =>
        rw [List.find?_cons,parseParts_name hentry]
        cases sameName parts.1 name <;> rfl

theorem parseMft_of_header {mftBuffer : Block} (h : magicText <+: mftText mftBuffer) :
    parseMft mftBuffer = looseEntries mftBuffer := if_pos (List.isPrefixOf_iff_prefix.mpr h)

theorem parseMft_of_no_header {mftBuffer : Block} (h : ¬magicText <+: mftText mftBuffer) :
    parseMft mftBuffer = [] := if_neg fun hp => h (List.isPrefixOf_iff_prefix.mp hp)

/-- In a table that fits, `find_file` finds the first entry of the same name. -/
theorem lookup_mftBlock {entries : List FileEntry} (h : AllClean entries)
    (hfit : tableSize entries ≤ 4096) (name : List Char) :
    lookup (mftBlock entries) name = entries.find? fun e => sameName e.name name := by
  have hmagic : magicText <+: mftText (mftBlock entries) := by
    rw [mftText_mftBlock (nul_not_mem_tableText h) hfit]
    exact List.prefix_append _ _
  rw [lookup_eq_find?,← parseMft_of_header hmagic,(parseMft_mftBlock hfit).mpr h]

theorem lookup_zero (name : List Char) : lookup .zero name = none := by
  rw [lookup,mftText_zero]
  rfl

theorem lookup_listed {d : NvmeController} (h : Intact d) (name : List Char) :
    lookup (d.blocks 0) name = (listed d).find? fun e => sameName e.name name := by
  rcases h with hzero | ⟨hblock,hfit⟩
  · rw [listed,hzero,parseMft_zero,lookup_zero]
    rfl
  · rw [hblock,lookup_mftBlock (listed_clean d) hfit]

/-- The entry `delete_file` and `rename_file` resolve a name to. -/
def resolveExact (entries : List FileEntry) (name : List Char) : Option FileEntry :=
  (entries.findFinIdx? (·.name == name)).map fun pos : Fin entries.length => entries.get pos

theorem resolveExact_eq (entries : List FileEntry) (name : List Char) :
    resolveExact entries name = entries.find? (·.name == name) := by
  rcases Call.position_cases (·.name == name) entries with ⟨h₁,h₂⟩ | ⟨pos,h₁,h₂⟩
  · rw [resolveExact,h₁,h₂]
    rfl
  · rw [resolveExact,h₁,h₂]
    rfl

/-- Two searches, the second stricter, agree when nothing the first meets comes before
something the second accepts. -/
theorem find?_eq_find?_iff {A : Type*} {p q : A → Bool} (hqp : ∀ a, q a = true → p a = true)
    (l : List A) : l.find? p = l.find? q ↔
      ∀ before a after, l = before ++ a::after → p a = true → ∃ b ∈ before ++ [a], q b = true := by
  constructor
  · rintro h before a after rfl hp
    have hsome : ((before ++ [a]).find? p).isSome :=
      List.find?_isSome.mpr ⟨a,by simp,hp⟩
    obtain ⟨b,hb⟩ := Option.isSome_iff_exists.mp hsome
    have hfull : (before ++ a::after).find? p = some b := by
      rw [List.append_cons,List.find?_append,hb,Option.some_or]
    rw [h] at hfull
    exact ⟨b,List.mem_of_find?_eq_some hb,List.find?_some hfull⟩
  · intro h
    cases hp : l.find? p with
    | none =>
      symm
      rw [List.find?_eq_none] at hp ⊢
      exact fun a ha hq => hp a ha (hqp a hq)
    | some a =>
      obtain ⟨hpa,before,after,rfl,hbefore⟩ := List.find?_eq_some_iff_append.mp hp
      have hnot : ∀ b ∈ before, q b ≠ true := fun b hb hq => by
        have := hbefore b hb
        simp [hqp b hq] at this
      obtain ⟨b,hb,hq⟩ := h before a after rfl hpa
      rcases List.mem_append.mp hb with hb | hb
      · exact absurd hq (hnot b hb)
      · rw [List.mem_singleton] at hb
        symm
        exact List.find?_eq_some_iff_append.mpr
          ⟨hb ▸ hq,before,after,rfl,fun c hc => by simpa using hnot c hc⟩

/-- Reading a name and deleting or renaming it act on one entry exactly when no listed
name that only looks the same comes before it. -/
theorem lookup_eq_resolveExact_iff {build : Profile} {d : NvmeController}
    (h : (fittingHistory build).Reachable d) (name : List Char) :
    lookup (d.blocks 0) name = resolveExact (listed d) name ↔
      ∀ before e after, listed d = before ++ e::after → sameName e.name name = true →
        name ∈ names (before ++ [e]) := by
  obtain ⟨_,_,hr⟩ := history_refines h
  rw [lookup_listed hr.intact,resolveExact_eq,find?_eq_find?_iff]
  · simp only [names,List.mem_map,beq_iff_eq]
  · intro e he
    rw [beq_iff_eq] at he
    rw [he,sameName_refl]

theorem lookup_eq_resolveExact_first_file : ∃ d',
    saveFile .dev ['a'] ⟨[42],by decide⟩ (some blankDrive) = .ok () (some d') ∧
    lookup (d'.blocks 0) ['a'] = resolveExact (listed d') ['a'] := by
  obtain ⟨d',hrun,hreach,_,hlisted⟩ :=
    save_first .dev ['a'] ⟨[42],by decide⟩ (by decide) ⟨by decide,by decide⟩ (by decide)
  refine ⟨d',hrun,(lookup_eq_resolveExact_iff hreach _).mpr ?_⟩
  rw [hlisted]
  intro before e after h _
  cases before with
  | nil =>
    cases h
    decide
  | cons b before => simp at h

/-- After `a` was saved, reading `A` finds it, and deleting or renaming `A` does not. -/
theorem other_case_resolves_differently : ∃ d',
    saveFile .dev ['a'] ⟨[42],by decide⟩ (some blankDrive) = .ok () (some d') ∧
    (fittingHistory .dev).Reachable d' ∧
    lookup (d'.blocks 0) ['A'] = some ⟨['a'],1,1⟩ ∧ resolveExact (listed d') ['A'] = none := by
  obtain ⟨d',hrun,hreach,_,hlisted⟩ :=
    save_first .dev ['a'] ⟨[42],by decide⟩ (by decide) ⟨by decide,by decide⟩ (by decide)
  obtain ⟨_,_,hr⟩ := history_refines hreach
  refine ⟨d',hrun,hreach,?_,?_⟩
  · rw [lookup_listed hr.intact,hlisted]
    decide
  · rw [hlisted]
    decide

/-- On every drive with this block 0 from which the table can be read, `find_file` answers with
the first entry of the same name in what `read_mft` returns. -/
def ParsersAgree (mftBuffer : Block) (name : List Char) : Prop :=
  ∀ d : NvmeController, d.blocks 0 = mftBuffer → ∀ entries s, readMft (some d) = .ok entries s →
    ∃ t, findFile name (some d) = .ok (entries.find? fun e => sameName e.name name) t

theorem parsersAgree_iff_lookup (mftBuffer : Block) (name : List Char) :
    ParsersAgree mftBuffer name ↔
      lookup mftBuffer name = (parseMft mftBuffer).find? fun e => sameName e.name name := by
  have hfind : ∀ {d : NvmeController}, d.Succeeds d.log.length → d.blocks 0 = mftBuffer →
      findFile name (some d) = .ok (lookup mftBuffer name) (some (d.issued (.read 0))) := by
    intro d hs hb
    rw [findFile,d.readBlock_eq,if_pos hs,← hb]
  constructor
  · intro h
    let d : NvmeController := ⟨fun _ => mftBuffer,fun _ => 0,[]⟩
    have hs : d.Succeeds d.log.length := show (0 : UInt16) >>> 1 = 0 by decide
    obtain ⟨t,ht⟩ := h d rfl _ _ (readMft_ok hs)
    rw [hfind hs rfl] at ht
    injection ht
  · rintro h d hb entries s hread
    obtain ⟨hs,rfl,rfl⟩ := readMft_iff.mp hread
    rw [listed,hb]
    exact ⟨_,(hfind hs hb).trans (by rw [h])⟩

/-- The two parsers agree under the `MFS_V1` header, which only one of them asks for; without
it, as long as no line behind the first would be an entry of the name. -/
theorem parsers_agree_iff (mftBuffer : Block) (name : List Char) :
    ParsersAgree mftBuffer name ↔ magicText <+: mftText mftBuffer ∨
      ∀ line ∈ (lines (mftText mftBuffer)).drop 1, ∀ e, parseLine line = some e →
        sameName e.name name = false := by
  rw [parsersAgree_iff_lookup,lookup_eq_find?]
  by_cases hmagic : magicText <+: mftText mftBuffer
  · exact iff_of_true (by rw [parseMft_of_header hmagic]) (.inl hmagic)
  rw [parseMft_of_no_header hmagic,List.find?_nil,List.find?_eq_none,or_iff_right hmagic]
  simp only [looseEntries,List.mem_filterMap,Bool.not_eq_true]
  constructor
  · exact fun h line hl e he => h e ⟨line,hl,he⟩
  · rintro h e ⟨line,hl,he⟩
    exact h line hl e he

/-- A block of somebody else's text: a blank line, and `a:1:1`. -/
def foreignBlock : Block := .ofData (Utf8.encode "\na:1:1".toList)

theorem mftText_foreignBlock : mftText foreignBlock = "\na:1:1".toList :=
  mftText_ofData (by decide) (by decide)

/-- `find_file` finds a file in a block that is no table for `read_mft`. -/
theorem foreignBlock_disagrees : ¬ParsersAgree foreignBlock ['a'] ∧
    lookup foreignBlock ['a'] = some ⟨['a'],1,1⟩ ∧ parseMft foreignBlock = [] := by
  have hentries : looseEntries foreignBlock = [⟨['a'],1,1⟩] := by
    rw [looseEntries,mftText_foreignBlock]
    decide
  have hnone : parseMft foreignBlock = [] := by
    refine parseMft_of_no_header ?_
    rw [mftText_foreignBlock]
    decide
  have hsome : lookup foreignBlock ['a'] = some ⟨['a'],1,1⟩ := by
    rw [lookup_eq_find?,hentries]
    decide
  refine ⟨?_,hsome,hnone⟩
  rw [parsersAgree_iff_lookup,hsome,hnone]
  exact nofun

end Mfs
end PolymorphOS
