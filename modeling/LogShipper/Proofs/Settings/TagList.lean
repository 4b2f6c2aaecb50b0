import LogShipper.Proofs.Text.Splitting
import LogShipper.Settings.Environment

/-!
# Lists of tags are read as they were written

A list of tags is written in pieces with commas between them.  A piece gives a key and a value with
an equals sign between them, and blanks may stand around both; a piece without an equals sign, or
with nothing but blanks before it, gives nothing.  Such a list is read as the tags that its pieces
give: as the dictionary that they are the entries of, in whichever order they stand, and for a key
that is given more than once as the last value of the key (`readTagList_written`).

Every text is a list that is written in this way (`exists_writesTags`).
-/

namespace LogShipper

/-! ## Dictionaries by their values -/

namespace Dictionary

universe u

variable {β : Type u}

/-- Of sorted entries at most one is about a key. -/
theorem filter_key {es : List (Text × β)} (h : es.Pairwise fun a b => a.1 < b.1) (k : Text) :
    (es.filter fun e => e.1 = k) = (valueIn k es).toList.map fun b => (k, b) := by
  induction es with
  | nil => rfl
  | cons e es ih =>
    obtain ⟨hfirst, hrest⟩ := List.pairwise_cons.1 h
    rw [valueIn]
    split
    · rename_i hk
      subst hk
      have hothers : (es.filter fun x => x.1 = e.1) = [] := by
        rw [List.filter_eq_nil_iff]
        intro x hx heq
        exact List.lt_irrefl e.1 (of_decide_eq_true heq ▸ hfirst x hx)
      rw [List.filter_cons_of_pos (by simp), hothers]
      rfl
    · rename_i hk
      rw [List.filter_cons_of_neg (by simpa using hk), ih hrest]

theorem find?_eq_some_iff {d : Dictionary β} {k : Text} {b : β} :
    d.find? k = some b ↔ (k, b) ∈ d.entries := by
  have hfilter : (k, b) ∈ d.entries ↔ (k, b) ∈ d.entries.filter fun e => e.1 = k := by
    simp [List.mem_filter]
  rw [hfilter, filter_key d.sorted]
  simp [find?]

theorem nodup_entries (d : Dictionary β) : d.entries.Nodup := by
  refine d.sorted.imp fun {a b} hlt => ?_
  rintro rfl
  exact List.lt_irrefl a.1 hlt

/-- A dictionary is determined by the values of its keys. -/
theorem eq_of_find? {d d' : Dictionary β} (h : ∀ k, d.find? k = d'.find? k) : d = d' := by
  have hmem (e : Text × β) : e ∈ d.entries ↔ e ∈ d'.entries := by
    obtain ⟨k, b⟩ := e
    rw [← find?_eq_some_iff, ← find?_eq_some_iff, h]
  have hperm := (List.perm_ext_iff_of_nodup d.nodup_entries d'.nodup_entries).2 hmem
  have heq : d.entries = d'.entries := hperm.eq_of_pairwise
    (fun a b _ _ hab hba => absurd (List.lt_trans hab hba) (List.lt_irrefl a.1)) d.sorted d'.sorted
  cases d
  cases d'
  cases heq
  rfl

/-- The last value of a key counts. -/
theorem find?_ofList (pairs : List (Text × β)) (k : Text) : (ofList pairs).find? k =
    ((pairs.filter fun p => p.1 = k).getLast?).map Prod.snd := by
  induction pairs using List.reverseRecOn with
  | nil => rfl
  | append_singleton pairs pair ih =>
    have hlast : ofList (pairs ++ [pair]) = (ofList pairs).insert pair.1 pair.2 :=
      List.foldl_append
    rw [hlast, find?_insert, List.filter_append]
    split
    · rename_i hk
      simp [hk]
    · rename_i hk
      rw [List.filter_cons_of_neg (by simpa using Ne.symm hk), List.filter_nil, List.append_nil, ih]

/-- The entries of a dictionary make it, in any order. -/
theorem ofList_of_perm {pairs : List (Text × β)} {d : Dictionary β} (h : pairs.Perm d.entries) :
    ofList pairs = d := by
  refine eq_of_find? fun k => ?_
  have hentries : (pairs.filter fun e => e.1 = k) = (d.find? k).toList.map fun b => (k, b) := by
    have hperm := h.filter fun e => e.1 = k
    rw [filter_key d.sorted] at hperm
    unfold find?
    cases hfind : valueIn k d.entries with
    | none =>
      rw [hfind] at hperm
      exact hperm.eq_nil
    | some b =>
      rw [hfind] at hperm
      exact List.perm_singleton.1 hperm
  rw [find?_ofList, hentries]
  cases d.find? k <;> rfl

end Dictionary

/-! ## Pieces of a list -/

/-- A key of a tag as it is read from a list. -/
structure IsTagKey (key : Text) : Prop where
  ne_nil : key ≠ []
  trimmed : key.trim = key
  comma : ',' ∉ key
  equals : '=' ∉ key

/-- A value of a tag as it is read from a list, which may have equals signs in it. -/
structure IsTagValue (value : Text) : Prop where
  trimmed : value.trim = value
  comma : ',' ∉ value

/-- A text with blanks around it. -/
def IsPadded (t padded : Text) : Prop :=
  ∃ before after : Text, before.isAllBlank = true ∧ after.isAllBlank = true ∧
    padded = before ++ t ++ after

/-- Pieces that give some tags, in their order. -/
inductive WritesTags : List (Text × Text) → List Text → Prop
  | nil : WritesTags [] []
  /-- A key and a value with an equals sign between them. -/
  | tag {key value keyPart valuePart : Text} {tags : List (Text × Text)} {pieces : List Text}
    (hkey : IsTagKey key) (hvalue : IsTagValue value) (hkeyPart : IsPadded key keyPart)
    (hvaluePart : IsPadded value valuePart) (rest : WritesTags tags pieces) :
    WritesTags ((key, value) :: tags) ((keyPart ++ '=' :: valuePart) :: pieces)
  /-- A piece without an equals sign gives nothing. -/
  | unequal {piece : Text} {tags : List (Text × Text)} {pieces : List Text} (hcomma : ',' ∉ piece)
    (hequals : '=' ∉ piece) (rest : WritesTags tags pieces) : WritesTags tags (piece :: pieces)
  /-- A piece with a blank key gives nothing. -/
  | unnamed {blanks valuePart : Text} {tags : List (Text × Text)} {pieces : List Text}
    (hblanks : blanks.isAllBlank = true) (hcomma : ',' ∉ valuePart)
    (rest : WritesTags tags pieces) : WritesTags tags ((blanks ++ '=' :: valuePart) :: pieces)

/-- The tag that a piece gives. -/
def readPiece? (piece : Text) : Option (Text × Text) :=
  match Text.cutAt? (· = '=') piece with
  | none => none
  | some (key, value) => if key.trim.isEmpty then none else some (key.trim, value.trim)

theorem readTagList_eq (list : Text) :
    readTagList list = .ofList ((list.splitOn ',').filterMap readPiece?) := rfl

section Pieces

variable {c : Char} {t padded key piece : Text} {tags : List (Text × Text)}
  {pieces : List Text}

namespace IsPadded

theorem trim_eq (h : IsPadded t padded) (ht : t.trim = t) : padded.trim = t := by
  obtain ⟨before, after, hbefore, hafter, rfl⟩ := h
  rw [← Text.trimStart_trimEnd, Text.trimEnd_append_of_isAllBlank _ hafter, Text.trimStart_trimEnd]
  exact (congrArg Text.trimEnd (Text.trimStart_append_of_isAllBlank hbefore t)).trans ht

/-- Only what is not blank is written. -/
theorem not_mem (h : IsPadded t padded) (hc : isBlank c = false) (ht : c ∉ t) : c ∉ padded := by
  obtain ⟨before, after, hbefore, hafter, rfl⟩ := h
  simp [ht, Text.not_mem_of_isAllBlank hc hbefore, Text.not_mem_of_isAllBlank hc hafter]

end IsPadded

/-- A piece is cut at its first equals sign. -/
theorem readPiece?_append (h : '=' ∉ key) (value : Text) : readPiece? (key ++ '=' :: value) =
    if key.trim.isEmpty then none else some (key.trim, value.trim) := by
  unfold readPiece?
  rw [Text.cutAt?_mark h]

theorem readPiece?_of_not_mem (h : '=' ∉ piece) : readPiece? piece = none := by
  unfold readPiece?
  rw [Text.cutAt?_of_not_mem h]

namespace WritesTags

/-- Every piece is read as it was written. -/
theorem filterMap_readPiece? (h : WritesTags tags pieces) : pieces.filterMap readPiece? = tags := by
  induction h with
  | nil => rfl
  | @tag key value keyPart valuePart _ _ hkey hvalue hkeyPart hvaluePart rest ih =>
    have hread := readPiece?_append (hkeyPart.not_mem (by decide) hkey.equals) valuePart
    rw [hkeyPart.trim_eq hkey.trimmed, hvaluePart.trim_eq hvalue.trimmed,
      if_neg (by simpa using hkey.ne_nil)] at hread
    rw [List.filterMap_cons_some hread, ih]
  | unequal hcomma hequals rest ih =>
    rw [List.filterMap_cons_none (readPiece?_of_not_mem hequals), ih]
  | @unnamed blanks valuePart _ _ hblanks hcomma rest ih =>
    have hread := readPiece?_append (Text.not_mem_of_isAllBlank (by decide) hblanks) valuePart
    rw [Text.trim_eq_nil_iff.2 hblanks, if_pos List.isEmpty_nil] at hread
    rw [List.filterMap_cons_none hread, ih]

/-- No comma stands in a piece. -/
theorem comma_not_mem (h : WritesTags tags pieces) : ∀ piece ∈ pieces, ',' ∉ piece := by
  induction h with
  | nil => exact List.forall_mem_nil _
  | tag hkey hvalue hkeyPart hvaluePart rest ih =>
    refine List.forall_mem_cons.2 ⟨?_, ih⟩
    simp [hkeyPart.not_mem (by decide) hkey.comma, hvaluePart.not_mem (by decide) hvalue.comma]
  | unequal hcomma hequals rest ih => exact List.forall_mem_cons.2 ⟨hcomma, ih⟩
  | unnamed hblanks hcomma rest ih =>
    refine List.forall_mem_cons.2 ⟨?_, ih⟩
    simp [Text.not_mem_of_isAllBlank (c := ',') (by decide) hblanks, hcomma]

/-- The list is read as the tags that its pieces give. -/
theorem readTagList_intercalate (h : WritesTags tags pieces) :
    readTagList (List.intercalate [','] pieces) = .ofList tags := by
  rw [readTagList_eq]
  cases pieces with
  | nil =>
    cases h
    rfl
  | cons piece pieces =>
    rw [List.splitOn_intercalate ',' h.comma_not_mem (List.cons_ne_nil _ _),
      h.filterMap_readPiece?]

end WritesTags

end Pieces

/-! ## Every text is a list -/

theorem isPadded_trim (t : Text) : IsPadded t.trim t := Text.exists_eq_trim t

/-- Every piece gives a tag or nothing. -/
theorem exists_writesTags_cons {piece : Text} {tags : List (Text × Text)} {pieces : List Text}
    (hcomma : ',' ∉ piece) (rest : WritesTags tags pieces) :
    ∃ tags, WritesTags tags (piece :: pieces) := by
  cases hcut : Text.cutAt? (· = '=') piece with
  | none => exact ⟨tags, .unequal hcomma (Text.not_mem_of_cutAt?_eq_none hcut) rest⟩
  | some halves =>
    obtain ⟨key, value⟩ := halves
    obtain ⟨rfl, hequals⟩ := Text.eq_of_cutAt?_mark hcut
    obtain ⟨hkeyComma, hvalueComma⟩ : ',' ∉ key ∧ ',' ∉ value := by simpa using hcomma
    by_cases hblank : key.isAllBlank = true
    · exact ⟨tags, .unnamed hblank hvalueComma rest⟩
    · refine ⟨(key.trim, value.trim) :: tags,
        .tag ?_ ?_ (isPadded_trim key) (isPadded_trim value) rest⟩
      · exact ⟨mt Text.trim_eq_nil_iff.1 hblank, Text.trim_trim key,
          mt (Text.mem_trim_iff (by decide)).1 hkeyComma,
          mt (Text.mem_trim_iff (by decide)).1 hequals⟩
      · exact ⟨Text.trim_trim value, mt (Text.mem_trim_iff (by decide)).1 hvalueComma⟩

theorem exists_writesTags_of_pieces {pieces : List Text} (h : ∀ piece ∈ pieces, ',' ∉ piece) :
    ∃ tags, WritesTags tags pieces := by
  induction pieces with
  | nil => exact ⟨[], .nil⟩
  | cons piece pieces ih =>
    obtain ⟨hpiece, hrest⟩ := List.forall_mem_cons.1 h
    obtain ⟨tags, htags⟩ := ih hrest
    exact exists_writesTags_cons hpiece htags

/-- Every text is written in pieces that give some tags. -/
theorem exists_writesTags (list : Text) :
    ∃ tags pieces, WritesTags tags pieces ∧ list = List.intercalate [','] pieces := by
  obtain ⟨tags, htags⟩ := @exists_writesTags_of_pieces (list.splitOn ',')
    fun _ => Text.not_mem_of_mem_splitOn
  exact ⟨tags, list.splitOn ',', htags, (List.intercalate_splitOn ',').symm⟩

/-! ## Reading undoes writing -/

/-- **A list of tags is read as it was written.**  Take pieces that give some tags, with any blanks
around their keys and values, and any pieces between them that give nothing.  If the tags are the
entries of a dictionary, in whichever order they stand, the list is read as this dictionary.  In any
case the value of each key is the last one that is given for it. -/
theorem readTagList_written {tags : List (Text × Text)} {pieces : List Text}
    (h : WritesTags tags pieces) :
    let list := List.intercalate [','] pieces
    (∀ d : Dictionary Text, tags.Perm d.entries → readTagList list = d) ∧
      ∀ key, (readTagList list).find? key =
        ((tags.filter fun tag => tag.1 = key).getLast?).map Prod.snd := by
  intro list
  have hlist : readTagList list = .ofList tags := h.readTagList_intercalate
  rw [hlist]
  exact ⟨fun d hperm => Dictionary.ofList_of_perm hperm, Dictionary.find?_ofList tags⟩

/-- Blanks, an equals sign in a value, pieces that give nothing, and a key that is given twice. -/
theorem readTagList_written_of_noise :
    let tags : List (Text × Text) := [("region", "eu"), ("env", "a=b")]
    let pieces : List Text := [" region = eu", "broken", " =x", "env= a=b "]
    let more : List (Text × Text) := [("region", "us")]
    let morePieces : List Text := ["region=us"]
    (WritesTags tags pieces ∧ WritesTags (tags ++ more) (pieces ++ morePieces)) ∧
      readTagList " region = eu,broken, =x,env= a=b " =
        .ofList [("env", "a=b"), ("region", "eu")] ∧
      (readTagList " region = eu,broken, =x,env= a=b ,region=us").find? "region" =
        some "us".toList := by
  intro tags pieces more morePieces
  have hregion : IsTagKey "region" := ⟨by decide, by decide, by decide, by decide⟩
  have henv : IsTagKey "env" := ⟨by decide, by decide, by decide, by decide⟩
  have hwritten {tags' : List (Text × Text)} {pieces' : List Text} (h : WritesTags tags' pieces') :
      WritesTags (tags ++ tags') (pieces ++ pieces') := by
    refine .tag hregion ⟨by decide, by decide⟩ (isPadded_trim " region ") (isPadded_trim " eu") ?_
    refine .unequal (by decide) (by decide) ?_
    refine @WritesTags.unnamed " " "x" _ _ (by decide) (by decide) ?_
    exact .tag henv ⟨by decide, by decide⟩ (isPadded_trim "env") (isPadded_trim " a=b ") h
  have honce : WritesTags tags pieces := hwritten .nil
  have htwice : WritesTags (tags ++ more) (pieces ++ morePieces) :=
    hwritten (.tag hregion ⟨by decide, by decide⟩ (isPadded_trim "region") (isPadded_trim "us")
      .nil)
  refine ⟨⟨honce, htwice⟩, ?_, ?_⟩
  · exact (readTagList_written honce).1 _ (by decide)
  · exact (readTagList_written htwice).2 "region"

end LogShipper
