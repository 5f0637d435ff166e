import LifeEngine.Dav.Vcard

/-!
# Reading a vCard that was written

The lines of a contact's vCard survive folding and unfolding, and the loop of
`vcard_to_contact` over them ends in `parsedContact`.  Escaped values decode to what was
written, as long as they are not cut.
-/

namespace LifeEngine.Dav

open Support List

/-! ## Escaping -/

/-- How one character is escaped. -/
def quote (c : Char) : List Char :=
  if c = '\\' then ['\\', '\\']
  else if c = ',' then ['\\', ',']
  else if c = ';' then ['\\', ';']
  else if c = '\n' then ['\\', 'n']
  else [c]

theorem escapeVcardValue_eq (value : List Char) : escapeVcardValue value = value.flatMap quote := by
  simp only [escapeVcardValue, replaceChar, flatMap_assoc]
  congr 1
  funext c
  rcases eq_or_ne c '\\' with rfl | hbackslash
  · decide
  rcases eq_or_ne c ',' with rfl | hcomma
  · decide
  rcases eq_or_ne c ';' with rfl | hsemicolon
  · decide
  rcases eq_or_ne c '\n' with rfl | hnewline
  · decide
  simp [hbackslash, hcomma, hsemicolon, quote]

theorem decode_quote_append (c : Char) (rest : List Char) :
    decodeEscapedValue (quote c ++ rest) = c :: decodeEscapedValue rest := by
  rw [quote]
  split_ifs with hbackslash hcomma hsemicolon hnewline
  · subst hbackslash
    exact decode_escape rfl rest
  · subst hcomma
    exact decode_escape rfl rest
  · subst hsemicolon
    exact decode_escape rfl rest
  · subst hnewline
    exact decode_escape rfl rest
  · exact decode_cons_of_ne hbackslash rest

theorem decode_escapeVcardValue_append (value rest : List Char) :
    decodeEscapedValue (escapeVcardValue value ++ rest) = value ++ decodeEscapedValue rest := by
  rw [escapeVcardValue_eq]
  induction value with
  | nil => rfl
  | cons c value ih =>
    rw [flatMap_cons, append_assoc, decode_quote_append, ih, cons_append]

/-- Decoding undoes escaping. -/
theorem decode_escapeVcardValue (value : List Char) :
    decodeEscapedValue (escapeVcardValue value) = value := by
  simpa [decodeEscapedValue] using decode_escapeVcardValue_append value []

/-- Every string is read back from its escaped form. -/
theorem ofList_decode_escape (s : String) :
    String.ofList (decodeEscapedValue (escapeVcardValue s.toList)) = s := by
  rw [decode_escapeVcardValue, String.ofList_toList]

theorem escapeVcardValue_append (front back : List Char) :
    escapeVcardValue (front ++ back) = escapeVcardValue front ++ escapeVcardValue back := by
  simp [escapeVcardValue_eq]

theorem mem_quote {c d : Char} (h : d ∈ quote c) : d = '\\' ∨ d = 'n' ∨ d = c := by
  unfold quote at h
  grind

variable {value done : List Char}

theorem mem_of_mem_escapeVcardValue {d : Char} (hbackslash : d ≠ '\\') (hn : d ≠ 'n')
    (h : d ∈ escapeVcardValue value) : d ∈ value := by
  rw [escapeVcardValue_eq] at h
  obtain ⟨c, hc, hd⟩ := mem_flatMap.mp h
  rcases mem_quote hd with rfl | rfl | rfl
  · exact absurd rfl hbackslash
  · exact absurd rfl hn
  · exact hc

theorem semicolon_mem_escapeVcardValue : ';' ∈ escapeVcardValue value ↔ ';' ∈ value := by
  refine ⟨mem_of_mem_escapeVcardValue (by decide) (by decide), ?_⟩
  intro h
  rw [escapeVcardValue_eq]
  exact mem_flatMap.mpr ⟨';', h, by decide⟩

/-- The first field of an escaped value with a semicolon ends in a backslash. -/
theorem decode_first_field {front back : List Char}
    (h : escapeVcardValue value = front ++ ';' :: back) (hfront : ';' ∉ front) :
    ∃ before after, value = before ++ ';' :: after ∧
      decodeEscapedValue front = before ++ ['\\'] := by
  have hmem : ';' ∈ value := by
    rw [← semicolon_mem_escapeVcardValue, h]
    simp
  obtain ⟨before, after, rfl, hbefore⟩ := eq_append_cons_of_mem hmem
  have hnot : ';' ∉ escapeVcardValue before ++ ['\\'] := by
    rw [mem_append, semicolon_mem_escapeVcardValue, not_or]
    exact ⟨hbefore, by decide⟩
  have hsplit : escapeVcardValue (before ++ ';' :: after) =
      (escapeVcardValue before ++ ['\\']) ++ ';' :: escapeVcardValue after := by
    rw [escapeVcardValue_append, escapeVcardValue_eq (';' :: after), flatMap_cons,
      ← escapeVcardValue_eq]
    simp [quote]
  have hfields := congrArg (firstField ';') (h.symm.trans hsplit)
  rw [firstField_append_cons hfront, firstField_append_cons hnot] at hfields
  exact ⟨before, after, rfl, by rw [hfields, decode_escapeVcardValue_append]; rfl⟩

/-! ## Folding -/

variable {chunks : List (List Char)}

theorem folded_concat (h : chunks ≠ []) (chunk : List Char) :
    folded (chunks ++ [chunk]) = folded chunks ++ ['\r', '\n', ' '] ++ chunk := by
  rw [folded, intercalate_append h (by simp)]
  simp [folded]

/-- After the characters `done`, whole chunks are written, and the rest is in the current one. -/
structure FoldState.Holds (s : FoldState) (chunks : List (List Char)) (done : List Char) :
    Prop where
  flatten : chunks.flatten ++ s.chunk = done
  first : s.first = chunks.isEmpty
  result : s.result = folded chunks

theorem FoldState.Holds.emit {s : FoldState} (h : s.Holds chunks done) :
    s.emit = folded (chunks ++ [s.chunk]) := by
  rw [FoldState.emit, h.first, h.result]
  by_cases hempty : chunks = []
  · subst hempty
    simp [folded]
  · rw [folded_concat hempty, if_neg (by simpa using hempty)]

theorem byteLen_cons (c : Char) (text : List Char) :
    byteLen (c :: text) = c.utf8Size + byteLen text := by
  induction text using reverseRecOn with
  | nil => simp [byteLen]
  | append_singleton text d ih =>
    simp only [byteLen, foldl_cons, foldl_append, foldl_nil] at ih ⊢
    omega

/-- The current chunk has room, and no physical line is too long. -/
structure FoldState.Fits (s : FoldState) (chunks : List (List Char)) : Prop where
  chunkByteLen : s.chunkByteLen = byteLen s.chunk
  room : s.chunkByteLen ≤ if s.first then 75 else 74
  short : ∀ physical ∈ foldedLines chunks, byteLen physical ≤ 75

/-- The line of the current chunk begins with a space, unless it is the first. -/
theorem FoldState.Fits.emit {s : FoldState} (h : s.Fits chunks)
    (hfirst : s.first = chunks.isEmpty) :
    ∀ physical ∈ foldedLines (chunks ++ [s.chunk]), byteLen physical ≤ 75 := by
  have hroom := h.room
  rw [h.chunkByteLen, hfirst] at hroom
  cases chunks with
  | nil => simpa [foldedLines] using hroom
  | cons chunk chunks =>
    have hlast : byteLen (' ' :: s.chunk) ≤ 75 := by
      rw [byteLen_cons]
      exact Nat.add_le_add_left hroom 1
    intro physical hphysical
    rw [cons_append, foldedLines, map_append, ← cons_append, mem_append] at hphysical
    rcases hphysical with hphysical | hphysical
    · exact h.short physical hphysical
    · rw [mem_singleton.mp hphysical]
      exact hlast

theorem foldStep_holds {s : FoldState} (h : s.Holds chunks done) (hfits : s.Fits chunks)
    (c : Char) :
    ∃ chunks', (foldStep s c).Holds chunks' (done ++ [c]) ∧ (foldStep s c).Fits chunks' := by
  have hsize := c.utf8Size_le_four
  simp only [foldStep]
  by_cases hfull : s.chunkByteLen + c.utf8Size > if s.first then 75 else 74
  · rw [if_pos hfull]
    refine ⟨chunks ++ [s.chunk], ⟨?_, ?_, h.emit⟩, ⟨?_, ?_, hfits.emit h.first⟩⟩
    · simp [← h.flatten]
    · simp
    · simp [byteLen]
    · exact hsize.trans (show 4 ≤ 74 by decide)
  · rw [if_neg hfull]
    refine ⟨chunks, ⟨?_, h.first, h.result⟩, ⟨?_, not_lt.mp hfull, hfits.short⟩⟩
    · simp [← h.flatten]
    · simp [byteLen, hfits.chunkByteLen]

theorem foldl_foldStep_holds (line : List Char) {s : FoldState} (h : s.Holds chunks done)
    (hfits : s.Fits chunks) :
    ∃ chunks', (line.foldl foldStep s).Holds chunks' (done ++ line) ∧
      (line.foldl foldStep s).Fits chunks' := by
  induction line generalizing s chunks done with
  | nil => exact ⟨chunks, by simpa using h, hfits⟩
  | cons c line ih =>
    obtain ⟨chunks', h', hfits'⟩ := foldStep_holds h hfits c
    obtain ⟨chunks'', h'', hfits''⟩ := ih h' hfits'
    exact ⟨chunks'', by simpa using h'', hfits''⟩

/-- A folded line consists of chunks that make up the line, on lines that are short enough. -/
theorem exists_foldLine_eq (line : List Char) :
    ∃ chunks, chunks.flatten = line ∧ foldLine line = folded chunks ∧
      ∀ physical ∈ foldedLines chunks, byteLen physical ≤ 75 := by
  by_cases hshort : byteLen line ≤ 75
  · refine ⟨[line], by simp, ?_, by simpa [foldedLines] using hshort⟩
    rw [foldLine, if_pos hshort]
    simp [folded]
  · have hstart : FoldState.Holds ⟨[], [], 0, true⟩ [] [] := ⟨rfl, rfl, rfl⟩
    obtain ⟨chunks, h, hfits⟩ :=
      foldl_foldStep_holds line hstart ⟨rfl, by decide, by simp [foldedLines]⟩
    rw [nil_append] at h
    simp only [foldLine, if_neg hshort, List.isEmpty_iff]
    generalize line.foldl foldStep ⟨[], [], 0, true⟩ = s at h hfits ⊢
    by_cases hchunk : s.chunk = []
    · refine ⟨chunks, ?_, ?_, hfits.short⟩
      · rw [← h.flatten, hchunk, append_nil]
      · rw [if_pos hchunk, h.result]
    · refine ⟨chunks ++ [s.chunk], ?_, ?_, hfits.emit h.first⟩
      · simpa using h.flatten
      · rw [if_neg hchunk, h.emit]

/-- A line is folded between characters, its physical lines have at most 75 bytes, and unfolding
gives the line again. -/
theorem foldLine_spec (line : List Char) (hone : OneLine line)
    (hhead : line.head? ≠ some ' ' ∧ line.head? ≠ some '\t') :
    (∃ chunks, chunks.flatten = line ∧
      strLines (normalizeBreaks (foldLine line)) = foldedLines chunks ∧
      ∀ physical ∈ foldedLines chunks, byteLen physical ≤ 75) ∧
      unfoldLines (foldLine line) = line := by
  by_cases hne : line = []
  · subst hne
    exact ⟨⟨[], rfl, rfl, by simp [foldedLines]⟩, rfl⟩
  obtain ⟨chunks, rfl, hfold, hshort⟩ := exists_foldLine_eq line
  have hunfold := unfoldLines_folded (cons_ne_nil chunks [])
    (fun other hother => mem_singleton.mp hother ▸ ⟨hne, hone, hhead⟩)
  have hlines : ∀ physical ∈ foldedLines chunks, OneLine physical :=
    fun _ hphysical => oneLine_of_mem_foldedLines hone hphysical
  have hphysical : foldedLines chunks ≠ [] := by
    cases chunks with
    | nil => exact absurd rfl hne
    | cons chunk chunks => exact cons_ne_nil _ _
  refine ⟨⟨chunks, rfl, ?_, hshort⟩, ?_⟩
  · rw [hfold, folded_eq, normalizeBreaks_intercalate hlines]
    exact strLines_intercalate hphysical hlines fun _ => ne_nil_of_getLast_foldedLines hne
  · rw [hfold]
    simpa using hunfold

theorem foldLine_spec_accents :
    unfoldLines (foldLine (contentLine "NOTE" (replicate 80 'é'))) =
      contentLine "NOTE" (replicate 80 'é') := by
  refine (foldLine_spec _ ⟨?_, ?_⟩ ⟨?_, ?_⟩).2 <;> decide

/-- Unfolding undoes folding. -/
theorem strLines_unfoldLines_foldLine {lines : List (List Char)} (hne : lines ≠ [])
    (h : ∀ line ∈ lines, ContentLine line) :
    strLines (unfoldLines (['\r', '\n'].intercalate (lines.map foldLine))) = lines := by
  choose chunks hflatten hfold hshort using exists_foldLine_eq
  have hlines : (lines.map chunks).map List.flatten = lines := by
    simp [Function.comp_def, hflatten]
  have hfolded : lines.map foldLine = (lines.map chunks).map folded := by
    simp [hfold]
  rw [hfolded, unfoldLines_folded (by simpa using hne), hlines]
  · refine strLines_intercalate hne (fun line hline => (h line hline).oneLine) ?_
    intro line hline
    exact (h line (mem_of_getLast? hline)).ne_nil
  · intro c hc
    obtain ⟨line, hline, rfl⟩ := mem_map.mp hc
    rw [hflatten]
    exact h line hline

/-! ## Properties -/

/-- A property with its parameters, of the given name. -/
def IsProperty (prop name : String) : Prop :=
  prop.toList ≠ [] ∧ prop.toList.head?.all (fun c => !isWhitespace c) = true ∧
    ':' ∉ prop.toList ∧ OneLine prop.toList ∧ (parsePropertyName prop.toList).1 = name.toList

instance (text : List Char) : Decidable (OneLine text) :=
  inferInstanceAs (Decidable ('\r' ∉ text ∧ '\n' ∉ text))

instance (prop name : String) : Decidable (IsProperty prop name) :=
  inferInstanceAs (Decidable (_ ∧ _ ∧ _ ∧ _ ∧ _))

variable (emailType : Option ContactInfoType) (primary : Option Bool)

theorem isProperty_emailProp :
    IsProperty (emailProp emailType primary) "EMAIL" := by
  rcases emailType with _ | _ | _ | _ <;> rcases primary with _ | _ | _ <;> decide

theorem isProperty_phoneProp (phoneType : Option PhoneType) :
    IsProperty (phoneProp phoneType) "TEL" := by
  rcases phoneType with _ | _ | _ | _ | _ | _ <;> decide

section Properties

variable {prop name : String} {value : List Char}

theorem IsProperty.head (h : IsProperty prop name) :
    ∀ c ∈ (contentLine prop value).head?, isWhitespace c = false := by
  obtain ⟨hne, hhead, -⟩ := h
  obtain ⟨c, text, htext⟩ := exists_cons_of_ne_nil hne
  rw [htext] at hhead
  rw [contentLine, htext]
  simpa using hhead

theorem IsProperty.contentLine (h : IsProperty prop name) (hvalue : OneLine value) :
    ContentLine (contentLine prop value) where
  ne_nil := by simp [Dav.contentLine]
  oneLine := by
    obtain ⟨-, -, -, hprop, -⟩ := h
    simp only [OneLine, Dav.contentLine, mem_append, mem_cons, not_or]
    exact ⟨⟨hprop.1, by decide, hvalue.1⟩, hprop.2, by decide, hvalue.2⟩
  head := by
    constructor
    · intro hspace
      exact absurd (h.head ' ' hspace) (by decide)
    · intro htab
      exact absurd (h.head '\t' htab) (by decide)

theorem IsProperty.readLine_eq (h : IsProperty prop name) (env : VcardEnv) (p : Parsed) :
    readLine env p (Dav.contentLine prop value) =
      readProperty env p prop.toList (trimEnd value) := by
  have htrim : trim (Dav.contentLine prop value) = prop.toList ++ ':' :: trimEnd value := by
    rw [trim_of_head h.head, Dav.contentLine, trimEnd_append_cons (by decide)]
  have hcut : cut [':'] (prop.toList ++ ':' :: trimEnd value) =
      some (prop.toList, trimEnd value) := by
    rw [append_cons]
    exact cut_append h.2.2.1 (trimEnd value)
  rw [readLine, htrim, hcut]
  simp

end Properties

/-! ## Contacts in question -/

/-- A text without control characters or whitespace at its ends, not empty. -/
def CleanText (text : List Char) : Prop :=
  text ≠ [] ∧ (∀ c ∈ text, isControl c = false) ∧ Trimmed text

instance (text : List Char) : Decidable (CleanText text) :=
  decidable_of_iff
    (text ≠ [] ∧ text.all (fun c => !isControl c) = true ∧
      text.head?.all (fun c => !isWhitespace c) = true ∧
      text.getLast?.all (fun c => !isWhitespace c) = true)
    (by simp [CleanText, Trimmed, Option.all_eq_true])

/-- A text of an optional part: it is missing or clean. -/
def CleanPart (part : Option String) : Prop :=
  ∀ text ∈ part, CleanText text.toList

@[simp] theorem cleanPart_none : CleanPart none := by
  simp [CleanPart]

@[simp] theorem cleanPart_some (text : String) : CleanPart (some text) ↔ CleanText text.toList := by
  simp [CleanPart]

/-- The parts are absent or clean; an absent name is empty. -/
structure Contact.CleanParts (contact : Contact) : Prop where
  given : contact.name.given = "" ∨ CleanText contact.name.given.toList
  family : contact.name.family = "" ∨ CleanText contact.name.family.toList
  middle : CleanPart contact.name.middle
  namePrefix : CleanPart contact.name.namePrefix
  suffix : CleanPart contact.name.suffix
  emails : ∀ email ∈ contact.emails, CleanText email.address.toList
  phones : ∀ phone ∈ contact.phones, CleanText phone.number.toList
  addresses : ∀ address ∈ contact.addresses, ∀ part ∈ address.parts, CleanPart part
  organization : CleanPart contact.organization

def CleanOrEmpty (text : List Char) : Prop :=
  text = [] ∨ CleanText text

theorem CleanPart.textOr {part : Option String} (h : CleanPart part) :
    CleanOrEmpty (textOr part) := by
  rcases part with _ | text
  · exact Or.inl rfl
  · exact Or.inr (h text rfl)

section CleanTexts

variable {text : List Char}

theorem CleanText.oneLine (h : CleanText text) : OneLine text := by
  constructor
  · intro hcr
    exact absurd (h.2.1 _ hcr) (by decide)
  · intro hlf
    exact absurd (h.2.1 _ hlf) (by decide)

theorem CleanText.trim_eq (h : CleanText text) : trim text = text := trim_eq_self h.2.2

theorem CleanOrEmpty.oneLine (h : CleanOrEmpty text) : OneLine text := by
  rcases h with rfl | h
  · exact ⟨by simp, by simp⟩
  · exact h.oneLine

theorem CleanOrEmpty.trimEnd_eq (h : CleanOrEmpty text) : trimEnd text = text := by
  rcases h with rfl | h
  · rfl
  · exact trimEnd_eq_self h.2.2.2

theorem oneLine_escapeVcardValue (h : OneLine text) : OneLine (escapeVcardValue text) :=
  ⟨fun hcr => h.1 (mem_of_mem_escapeVcardValue (by decide) (by decide) hcr),
    fun hlf => h.2 (mem_of_mem_escapeVcardValue (by decide) (by decide) hlf)⟩

/-- Escaping keeps the last character, unless it is a line feed. -/
theorem CleanOrEmpty.trimEnd_escape_eq (h : CleanOrEmpty text) :
    trimEnd (escapeVcardValue text) = escapeVcardValue text := by
  rcases h with rfl | h
  · rfl
  · apply trimEnd_eq_self
    obtain ⟨front, c, rfl⟩ := (eq_nil_or_concat text).resolve_left h.1
    have hc : isWhitespace c = false := h.2.2.2 c (by simp)
    have hlf : c ≠ '\n' := by
      rintro rfl
      exact absurd hc (by decide)
    have hlast : (quote c).getLast? = some c := by
      unfold quote
      grind
    intro d hd
    rw [concat_eq_append, escapeVcardValue_append, escapeVcardValue_eq [c], flatMap_singleton,
      getLast?_append, hlast] at hd
    obtain rfl := Option.some.inj hd
    exact hc

end CleanTexts

theorem trimEnd_intercalate {parts : List (List Char)} (h : parts ≠ []) {last : List Char}
    (hlast : trimEnd last = last) :
    trimEnd ([';'].intercalate (parts ++ [last])) = [';'].intercalate (parts ++ [last]) := by
  rw [intercalate_append h (by simp), intercalate_singleton, append_assoc,
    singleton_append, trimEnd_append_cons (by decide), hlast]

theorem oneLine_intercalate {sep : Char} (hsep : OneLine [sep]) {parts : List (List Char)}
    (h : ∀ part ∈ parts, OneLine part) : OneLine ([sep].intercalate parts) := by
  rw [oneLine_iff]
  intro c hc
  rcases mem_intercalate hc with rfl | ⟨part, hpart, hmem⟩
  · exact hsep
  · exact oneLine_iff.mp (h part hpart) c hmem

section Values

variable {contact : Contact} (h : contact.CleanParts)

include h

theorem Contact.CleanParts.name_parts : ∀ part ∈ contact.name.parts, CleanOrEmpty part := by
  have hgiven : CleanOrEmpty contact.name.given.toList := h.given.imp (by simp) fun hclean => hclean
  have hfamily : CleanOrEmpty contact.name.family.toList :=
    h.family.imp (by simp) fun hclean => hclean
  simpa [ContactName.parts] using
    ⟨hfamily, hgiven, h.middle.textOr, h.namePrefix.textOr, h.suffix.textOr⟩

theorem Contact.CleanParts.oneLine_displayName : OneLine (displayName contact.name) := by
  refine oneLine_intercalate (by decide) ?_
  have hpart : ∀ {part : Option String}, CleanPart part → ∀ text ∈ part.toList,
      OneLine text.toList := fun hclean text htext =>
    (hclean text (by simpa using htext)).oneLine
  have hgiven : OneLine contact.name.given.toList :=
    (h.name_parts _ (by simp [ContactName.parts])).oneLine
  have hfamily : OneLine contact.name.family.toList :=
    (h.name_parts _ (by simp [ContactName.parts])).oneLine
  simp only [forall_mem_map, forall_mem_append, forall_mem_singleton]
  exact ⟨⟨⟨⟨hpart h.namePrefix, hgiven⟩, hpart h.middle⟩, hfamily⟩, hpart h.suffix⟩

theorem Contact.CleanParts.oneLine_nameValue : OneLine (nameValue contact.name) := by
  refine oneLine_intercalate (by decide) ?_
  rw [forall_mem_map]
  intro part hpart
  exact oneLine_escapeVcardValue (h.name_parts part hpart).oneLine

theorem Contact.CleanParts.trimEnd_nameValue :
    trimEnd (nameValue contact.name) = nameValue contact.name := by
  have hlast : contact.name.parts.map escapeVcardValue =
      [_, _, _, _] ++ [escapeVcardValue (textOr contact.name.suffix)] := rfl
  rw [nameValue, hlast]
  exact trimEnd_intercalate (by simp) h.suffix.textOr.trimEnd_escape_eq

theorem Contact.CleanParts.addressValue {address : ContactAddress}
    (haddress : address ∈ contact.addresses) :
    OneLine (addressValue address) ∧ trimEnd (addressValue address) = addressValue address := by
  have hparts : ∀ part ∈ address.parts, CleanOrEmpty (textOr part) := fun part hpart =>
    (h.addresses address haddress part hpart).textOr
  constructor
  · refine oneLine_intercalate (by decide) ?_
    simp only [forall_mem_cons, forall_mem_map]
    exact ⟨by decide, by decide, fun part hpart => (hparts part hpart).oneLine⟩
  · change trimEnd ([';'].intercalate ([[], [], _, _, _, _] ++ [_])) = _
    exact trimEnd_intercalate (by simp)
      (hparts address.country (by simp [ContactAddress.parts])).trimEnd_eq

theorem contentLine_of_mem_contactLines (env : VcardEnv)
    (hid : OneLine contact.sourceId.toList) :
    ∀ line ∈ contactLines env contact, ContentLine line := by
  have hproperty : ∀ {prop : String} {value : List Char}, IsProperty prop prop → OneLine value →
      ContentLine (contentLine prop value) := fun hprop hvalue => hprop.contentLine hvalue
  simp only [contactLines, forall_mem_append, forall_mem_cons, forall_mem_map,
    not_mem_nil, false_imp_iff, implies_true, and_true]
  refine ⟨⟨⟨⟨⟨⟨?_, ?_, ?_, ?_, ?_⟩, ?_⟩, ?_⟩, ?_⟩, ?_⟩, ?_, ?_⟩
  · exact hproperty (by decide) (by decide)
  · exact hproperty (by decide) (by decide)
  · exact hproperty (by decide) hid
  · exact hproperty (by decide) (oneLine_escapeVcardValue h.oneLine_displayName)
  · exact hproperty (by decide) h.oneLine_nameValue
  · intro email hemail
    exact (isProperty_emailProp _ _).contentLine (h.emails email hemail).oneLine
  · intro phone hphone
    exact (isProperty_phoneProp _).contentLine (h.phones phone hphone).oneLine
  · intro address haddress
    exact hproperty (by decide) (h.addressValue haddress).1
  · intro org horg
    exact hproperty (by decide)
      (oneLine_escapeVcardValue (h.organization org (by simpa using horg)).oneLine)
  · exact hproperty (by decide) (env.oneLine_rev _)
  · exact hproperty (by decide) (by decide)

end Values

/-! ## What is read -/

section Reading

variable {env : VcardEnv}

/-- Lines that each add to what was read add everything together. -/
theorem foldl_readLine_map {α β : Type} {line : α → List Char} {out : α → List β}
    {xs : List α} (add : Parsed → List β → Parsed)
    (hline : ∀ x ∈ xs, ∀ p, readLine env p (line x) = add p (out x))
    (hnil : ∀ p, add p [] = p) (happend : ∀ p bs cs, add (add p bs) cs = add p (bs ++ cs))
    (p : Parsed) : (xs.map line).foldl (readLine env) p = add p (xs.flatMap out) := by
  induction xs generalizing p with
  | nil => exact (hnil p).symm
  | cons x xs ih =>
    rw [forall_mem_cons] at hline
    rw [map_cons, foldl_cons, hline.1, ih hline.2, happend, flatMap_cons]

theorem foldl_readLine_emails {emails : List ContactEmail}
    (h : ∀ email ∈ emails, CleanText email.address.toList) (p : Parsed) :
    (emails.map fun email => contentLine (emailProp email.emailType email.primary)
        email.address.toList).foldl (readLine env) p =
      { p with
        emails := p.emails ++ emails.map fun email =>
          readEmail env (parsePropertyName (emailProp email.emailType email.primary).toList).2
            email.address.toList } := by
  rw [foldl_readLine_map (fun p read => { p with emails := p.emails ++ read }) ?_ (by simp)
    (by simp), map_eq_flatMap]
  intro email hemail p
  rw [(isProperty_emailProp _ _).readLine_eq, trimEnd_eq_self (h email hemail).2.2.2]
  generalize email.address.toList = value, email.emailType = emailType, email.primary = primary
  rcases emailType with _ | _ | _ | _ <;> rcases primary with _ | _ | _ <;> rfl

theorem foldl_readLine_phones {phones : List ContactPhone}
    (h : ∀ phone ∈ phones, CleanText phone.number.toList) (p : Parsed) :
    (phones.map fun phone => contentLine (phoneProp phone.phoneType)
        phone.number.toList).foldl (readLine env) p =
      { p with
        phones := p.phones ++ phones.map fun phone =>
          readPhone env (parsePropertyName (phoneProp phone.phoneType).toList).2
            phone.number.toList } := by
  rw [foldl_readLine_map (fun p read => { p with phones := p.phones ++ read }) ?_ (by simp)
    (by simp), map_eq_flatMap]
  intro phone hphone p
  rw [(isProperty_phoneProp _).readLine_eq, trimEnd_eq_self (h phone hphone).2.2.2]
  generalize phone.number.toList = value, phone.phoneType = phoneType
  rcases phoneType with _ | _ | _ | _ | _ | _ <;> rfl

theorem foldl_readLine_addresses {addresses : List ContactAddress}
    (h : ∀ address ∈ addresses, trimEnd (addressValue address) = addressValue address)
    (p : Parsed) :
    (addresses.map fun address => contentLine "ADR" (addressValue address)).foldl
        (readLine env) p =
      { p with
        addresses := p.addresses ++
          addresses.filterMap fun address => readAddress (addressValue address) } := by
  have hadr : IsProperty "ADR" "ADR" := by decide
  rw [foldl_readLine_map (fun p read => { p with addresses := p.addresses ++ read }) ?_
    (by simp) (by simp), filterMap_eq_flatMap_toList]
  intro address haddress p
  rw [hadr.readLine_eq, h address haddress]
  rfl

/-- The organisation that is read back. -/
def readOrganization (organization : Option String) : Option String :=
  organization.bind fun org =>
    keepNonEmpty (decodeEscapedValue (((escapeVcardValue org.toList).splitOn ';').headD [])) none

theorem foldl_readLine_organization {organization : Option String}
    (h : CleanPart organization) (p : Parsed) (hp : p.organization = none) :
    (organization.toList.map fun org =>
        contentLine "ORG" (escapeVcardValue org.toList)).foldl (readLine env) p =
      { p with organization := readOrganization organization } := by
  have horg : IsProperty "ORG" "ORG" := by decide
  rcases organization with _ | org
  · have hnone : readOrganization none = p.organization := hp.symm
    simp [hnone]
  · have hclean : CleanOrEmpty org.toList := Or.inr (h org rfl)
    simp only [Option.toList_some, map_cons, map_nil, foldl_cons, foldl_nil]
    rw [horg.readLine_eq, hclean.trimEnd_escape_eq, readOrganization, Option.bind_some, ← hp]
    rfl

/-- What the reader has read at the end of a contact's vCard. -/
def parsedContact (env : VcardEnv) (contact : Contact) : Parsed :=
  { readName { Parsed.empty with sourceId := trimEnd contact.sourceId.toList }
      (nameValue contact.name) with
    emails := contact.emails.map fun email =>
      readEmail env (parsePropertyName (emailProp email.emailType email.primary).toList).2
        email.address.toList
    phones := contact.phones.map fun phone =>
      readPhone env (parsePropertyName (phoneProp phone.phoneType).toList).2
        phone.number.toList
    addresses := contact.addresses.filterMap fun address => readAddress (addressValue address)
    organization := readOrganization contact.organization }

theorem foldl_readLine_contactLines {contact : Contact} (h : contact.CleanParts) :
    (contactLines env contact).foldl (readLine env) .empty = parsedContact env contact := by
  have hread : ∀ {prop : String} (p : Parsed) (value : List Char), IsProperty prop prop →
      readLine env p (contentLine prop value) =
        readProperty env p prop.toList (trimEnd value) := fun p value hprop =>
    hprop.readLine_eq env p
  have hhead : ([contentLine "BEGIN" "VCARD".toList, contentLine "VERSION" "4.0".toList,
      contentLine "UID" contact.sourceId.toList,
      contentLine "FN" (escapeVcardValue (displayName contact.name)),
      contentLine "N" (nameValue contact.name)].foldl (readLine env) .empty) =
      readName { Parsed.empty with sourceId := trimEnd contact.sourceId.toList }
        (nameValue contact.name) := by
    simp only [foldl_cons]
    rw [hread _ _ (by decide), hread _ _ (by decide), hread _ _ (by decide), h.trimEnd_nameValue]
    rfl
  have htail : ∀ p : Parsed, [contentLine "REV" (env.rev contact.updatedAt),
      contentLine "END" "VCARD".toList].foldl (readLine env) p = p := by
    intro p
    simp only [foldl_cons]
    rw [hread _ _ (by decide), hread _ _ (by decide)]
    rfl
  have haddresses : ∀ address ∈ contact.addresses,
      trimEnd (addressValue address) = addressValue address := fun address haddress =>
    (h.addressValue haddress).2
  rw [contactLines, foldl_append, htail, foldl_append, foldl_append,
    foldl_append, foldl_append, hhead, foldl_readLine_emails h.emails,
    foldl_readLine_phones h.phones, foldl_readLine_addresses haddresses,
    foldl_readLine_organization h.organization _ rfl]
  simp [parsedContact, readName, Parsed.empty]

end Reading

end LifeEngine.Dav
