import LifeEngine.Dav.Rereading

/-!
# Contacts through vCards

A contact that is written as a vCard and read again keeps its e-mail addresses and phone
numbers.  Its name and its organisation come back if they have no semicolon: the reader
cuts at semicolons before it decodes, whether or not they are escaped.  Addresses are
written without escapes and decoded when they are read.
-/

namespace LifeEngine.Dav

open Support List

/-- The contacts agree in all that the vCard carries. -/
structure SameDetails (contact contact' : Contact) : Prop where
  name : contact'.name = contact.name
  emails : contact'.emails.map (·.address) = contact.emails.map (·.address)
  phones : contact'.phones.map (·.number) = contact.phones.map (·.number)
  addresses : contact'.addresses.map (·.parts) = contact.addresses.map (·.parts)
  organization : contact'.organization = contact.organization

/-- The contact is read back from its vCard. -/
def RoundTrips (env : VcardEnv) (draw : VcardDraw) (contact : Contact) : Prop :=
  ∃ contact', vcardToContact env draw (contactToVcard env contact) = .ok contact' ∧
    SameDetails contact contact'

/-- An address that `ADR` carries: a part is present, and none has a semicolon or an escape. -/
structure ContactAddress.Writable (address : ContactAddress) : Prop where
  present : ∃ part ∈ address.parts, part ≠ none
  parts : ∀ part ∈ address.parts, ';' ∉ textOr part ∧ ¬HasEscape (textOr part)

/-- A contact that a vCard carries. -/
structure Contact.Writable (contact : Contact) : Prop where
  named : contact.name.given ≠ "" ∨ contact.name.family ≠ ""
  name : ∀ part ∈ contact.name.parts, ';' ∉ part
  addresses : ∀ address ∈ contact.addresses, address.Writable
  organization : ';' ∉ textOr contact.organization

/-! ## First fields -/

variable (text : List Char)

/-- The first field of an escaped text is the text, or ends in a backslash. -/
theorem decode_headD_escape :
    (';' ∉ text ∧ decodeEscapedValue (((escapeVcardValue text).splitOn ';').headD []) = text) ∨
      ∃ before after, text = before ++ ';' :: after ∧
        decodeEscapedValue (((escapeVcardValue text).splitOn ';').headD []) = before ++ ['\\'] := by
  by_cases hmem : ';' ∈ escapeVcardValue text
  · obtain ⟨front, back, henc, hfront⟩ := eq_append_cons_of_mem hmem
    obtain ⟨before, after, htext, hdecode⟩ := decode_first_field henc hfront
    refine Or.inr ⟨before, after, htext, ?_⟩
    rw [henc, splitOn_append_cons_of_not_mem hfront, headD_cons, hdecode]
  · refine Or.inl ⟨fun hsemi => hmem (semicolon_mem_escapeVcardValue.mpr hsemi), ?_⟩
    rw [splitOn_eq_singleton hmem, headD_cons, decode_escapeVcardValue]

theorem decode_headD_eq_self_iff :
    decodeEscapedValue (((escapeVcardValue text).splitOn ';').headD []) = text ↔ ';' ∉ text := by
  rcases decode_headD_escape text with ⟨hsemi, hdecode⟩ | ⟨before, after, rfl, hdecode⟩
  · exact iff_of_true hdecode hsemi
  · rw [hdecode]
    refine iff_of_false ?_ (by simp)
    intro heq
    have hhead := append_cancel_left heq
    simp at hhead

theorem eq_nil_of_decode_headD {text : List Char}
    (h : decodeEscapedValue (((escapeVcardValue text).splitOn ';').headD []) = []) :
    text = [] := by
  rcases decode_headD_escape text with ⟨-, hdecode⟩ | ⟨before, after, -, hdecode⟩
  · rw [← hdecode, h]
  · rw [hdecode] at h
    simp at h

theorem ofList_eq_iff (s : String) :
    String.ofList text = s ↔ text = s.toList := by
  rw [← String.toList_inj, String.toList_ofList]

theorem keepNonEmpty_eq_iff {part : Option String} (h : CleanPart part) (text : List Char) :
    keepNonEmpty text none = part ↔ text = textOr part := by
  rcases part with _ | part
  · simp [keepNonEmpty, textOr]
  · have hne : part.toList ≠ [] := (h part rfl).1
    by_cases htext : text = []
    · subst htext
      simp [keepNonEmpty, textOr, hne.symm]
    · simp [keepNonEmpty, textOr, htext, ofList_eq_iff]

/-- The organisation comes back exactly if it has no semicolon. -/
theorem readOrganization_eq_iff {organization : Option String} (h : CleanPart organization) :
    readOrganization organization = organization ↔ ';' ∉ textOr organization := by
  rcases organization with _ | org
  · simp [readOrganization, textOr]
  · rw [readOrganization, Option.bind_some, keepNonEmpty_eq_iff h]
    exact decode_headD_eq_self_iff org.toList

/-! ## Names -/

/-- The fields of `N`. -/
theorem splitOn_nameValue (name : ContactName) :
    (nameValue name).splitOn ';' =
      name.parts.flatMap fun part => (escapeVcardValue part).splitOn ';' := by
  rw [nameValue, splitOn_intercalate_eq_flatMap (by simp [ContactName.parts]), flatMap_map]

/-- The name parts that the reader has, in the order of `N`. -/
@[mk_iff]
structure Parsed.HasName (p : Parsed) (name : ContactName) : Prop where
  family : p.family = name.family.toList
  given : p.given = name.given.toList
  middle : p.middle = name.middle
  namePrefix : p.namePrefix = name.namePrefix
  suffix : p.suffix = name.suffix

section Names

variable {env : VcardEnv} {contact : Contact}

/-- The name parts come back exactly if none has a semicolon. -/
theorem hasName_parsedContact_iff (h : contact.CleanParts) :
    (parsedContact env contact).HasName contact.name ↔ ∀ part ∈ contact.name.parts, ';' ∉ part := by
  have hread : ∀ part ∈ contact.name.parts, ∀ front back,
      escapeVcardValue part = front ++ ';' :: back → ';' ∉ front →
        decodeEscapedValue front ≠ id part := by
    intro part _ front back henc hfront heq
    obtain ⟨before, after, rfl, hdecode⟩ := decode_first_field henc hfront
    rw [hdecode] at heq
    have hhead := append_cancel_left heq
    simp at hhead
  have hfields := map_getD_fields_iff hread
  rw [← splitOn_nameValue] at hfields
  simp only [decode_escapeVcardValue, semicolon_mem_escapeVcardValue, id_eq, and_true] at hfields
  have hrange : List.range contact.name.parts.length = [0, 1, 2, 3, 4] := rfl
  rw [← hfields, hrange]
  simp only [ContactName.parts, map_cons, map_nil, List.cons.injEq, and_true, id_eq,
    ← keepNonEmpty_eq_iff h.middle, ← keepNonEmpty_eq_iff h.namePrefix,
    ← keepNonEmpty_eq_iff h.suffix]
  simp only [Parsed.hasName_iff, parsedContact, readName, Parsed.empty]

theorem givenAndFamily_of_ne_nil {lines : List (List Char)} {p : Parsed}
    (h : p.given ≠ [] ∨ p.family ≠ []) : givenAndFamily lines p = (p.given, p.family) := by
  have hempty : ¬(p.given.isEmpty && p.family.isEmpty) = true := by
    simpa [imp_iff_not_or] using h
  simp only [givenAndFamily, if_neg hempty]

theorem givenAndFamily_ne_nil (lines : List (List Char)) (p : Parsed) :
    (givenAndFamily lines p).1 ≠ [] ∨ (givenAndFamily lines p).2 ≠ [] := by
  have hnames : ∀ names : List Char × List Char,
      (if names.1.isEmpty && names.2.isEmpty then ("(unnamed)".toList, []) else names).1 ≠ [] ∨
        (if names.1.isEmpty && names.2.isEmpty then ("(unnamed)".toList, []) else names).2 ≠
          [] := by
    intro names
    by_cases hempty : (names.1.isEmpty && names.2.isEmpty) = true
    · exact Or.inl (by rw [if_pos hempty]; decide)
    · rw [if_neg hempty]
      simpa [imp_iff_not_or] using hempty
  exact hnames _

/-- What is read of a name is empty only if the name is. -/
theorem names_eq_nil_of_parsedContact (hgiven : (parsedContact env contact).given = [])
    (hfamily : (parsedContact env contact).family = []) :
    contact.name.given = "" ∧ contact.name.family = "" := by
  have hfirst : ∀ text rest, ((escapeVcardValue text).splitOn ';' ++ rest).getD 0 [] =
      ((escapeVcardValue text).splitOn ';').headD [] := by
    intro text rest
    obtain ⟨field, fields, hfields⟩ := exists_cons_of_ne_nil
      (splitOn_ne_nil ';' (escapeVcardValue text))
    rw [hfields]
    rfl
  simp only [parsedContact, readName, splitOn_nameValue, ContactName.parts,
    flatMap_cons] at hgiven hfamily
  rw [hfirst] at hfamily
  have hfamily' := eq_nil_of_decode_headD hfamily
  have hskip : ∀ rest, ((escapeVcardValue []).splitOn ';' ++ rest).getD 1 [] =
      rest.getD 0 [] := fun rest => rfl
  rw [hfamily', hskip, hfirst] at hgiven
  exact ⟨String.toList_eq_nil_iff.mp (eq_nil_of_decode_headD hgiven),
    String.toList_eq_nil_iff.mp hfamily'⟩

theorem contact_name_eq_iff_hasName {p : Parsed} (h : p.given ≠ [] ∨ p.family ≠ [])
    (draw : VcardDraw) (lines : List (List Char)) (name : ContactName) :
    (p.contact draw lines).name = name ↔ p.HasName name := by
  rcases name with ⟨given, family, namePrefix, suffix, middle⟩
  simp only [Parsed.contact, givenAndFamily_of_ne_nil h, Parsed.hasName_iff,
    ContactName.mk.injEq, ofList_eq_iff]
  tauto

theorem contact_named (draw : VcardDraw) (lines : List (List Char)) (p : Parsed) :
    (p.contact draw lines).name.given ≠ "" ∨ (p.contact draw lines).name.family ≠ "" := by
  simpa [Parsed.contact] using givenAndFamily_ne_nil lines p

/-- The name comes back exactly if it is given and has no semicolon. -/
theorem contact_name_eq_iff (h : contact.CleanParts) (draw : VcardDraw)
    (lines : List (List Char)) :
    ((parsedContact env contact).contact draw lines).name = contact.name ↔
      (contact.name.given ≠ "" ∨ contact.name.family ≠ "") ∧
        ∀ part ∈ contact.name.parts, ';' ∉ part := by
  rw [← @hasName_parsedContact_iff env contact h]
  have hnamed := contact_named draw lines (parsedContact env contact)
  by_cases hempty : (parsedContact env contact).given = [] ∧ (parsedContact env contact).family = []
  · -- then the contact has neither name, and another is made up for it
    obtain ⟨hgiven, hfamily⟩ := names_eq_nil_of_parsedContact hempty.1 hempty.2
    refine iff_of_false ?_ ?_
    · intro hname
      rw [hname] at hnamed
      exact hnamed.elim (fun hne => hne hgiven) fun hne => hne hfamily
    · rintro ⟨hne, -⟩
      exact hne.elim (fun hne => hne hgiven) fun hne => hne hfamily
  · rw [not_and_or] at hempty
    rw [← contact_name_eq_iff_hasName hempty draw lines]
    constructor
    · intro hname
      exact ⟨hname ▸ hnamed, hname⟩
    · exact fun hname => hname.2

end Names

/-! ## Addresses -/

/-- One part of an address as it is read. -/
def readPart (text : List Char) : Option String :=
  (nonEmpty text).map String.ofList

/-- The fields of `ADR`. -/
theorem splitOn_addressValue (address : ContactAddress) :
    (addressValue address).splitOn ';' =
      [] :: [] :: address.parts.flatMap fun part => (textOr part).splitOn ';' := by
  rw [addressValue, splitOn_intercalate_eq_flatMap (by simp)]
  rfl

theorem readPart_ne {part : Option String} {front back : List Char}
    (h : textOr part = front ++ ';' :: back) (hfront : ';' ∉ front) : readPart front ≠ part := by
  rintro rfl
  have hmem : ';' ∈ textOr (readPart front) := by
    rw [h]
    simp
  by_cases hempty : (trim front).isEmpty = true
  · simp [readPart, nonEmpty, hempty, textOr] at hmem
  · simp only [readPart, nonEmpty, if_neg hempty, Option.map_some, textOr, Option.getD_some,
      String.toList_ofList] at hmem
    exact hfront ((dropWhile_suffix _).subset (( rdropWhile_prefix _ _).subset
      (mem_of_mem_decode (by decide) hmem)))

/-- A part reads back exactly if it has no escape. -/
theorem readPart_textOr_iff {part : Option String} (h : CleanPart part) :
    readPart (textOr part) = part ↔ ¬HasEscape (textOr part) := by
  rw [← decode_eq_self_iff]
  rcases part with _ | text
  · exact iff_of_true rfl rfl
  · have hclean := h text rfl
    simp [readPart, nonEmpty, textOr, hclean.trim_eq, hclean.1, ofList_eq_iff]

theorem map_parts_readAddress (address : ContactAddress) :
    (readAddress (addressValue address)).map ContactAddress.parts =
      let parts := (List.range address.parts.length).map fun i =>
        readPart ((address.parts.flatMap fun part => (textOr part).splitOn ';').getD i [])
      if parts.any Option.isSome then some parts else none := by
  have hrange : List.range address.parts.length = [0, 1, 2, 3, 4] := rfl
  rw [hrange]
  simp only [readAddress, splitOn_addressValue, map_cons, map_nil, any_cons, any_nil,
    Bool.or_false, Bool.or_assoc]
  generalize address.parts.flatMap (fun part => (textOr part).splitOn ';') = fields
  rw [apply_ite (Option.map ContactAddress.parts)]
  rfl

/-- An address comes back exactly if a vCard carries it. -/
theorem map_parts_readAddress_eq_iff {address : ContactAddress}
    (h : ∀ part ∈ address.parts, CleanPart part) :
    (readAddress (addressValue address)).map ContactAddress.parts = some address.parts ↔
      address.Writable := by
  have hread : ∀ part ∈ address.parts, ∀ front back, textOr part = front ++ ';' :: back →
      ';' ∉ front → readPart front ≠ id part :=
    fun part _ front back hpart hfront => readPart_ne hpart hfront
  have hfields := map_getD_fields_iff hread
  have hparts : (∀ part ∈ address.parts, ';' ∉ textOr part ∧ readPart (textOr part) = id part) ↔
      ∀ part ∈ address.parts, ';' ∉ textOr part ∧ ¬HasEscape (textOr part) :=
    forall₂_congr fun part hpart => and_congr_right' (readPart_textOr_iff (h part hpart))
  rw [hparts, map_id] at hfields
  rw [map_parts_readAddress]
  generalize (List.range address.parts.length).map (fun i =>
    readPart ((address.parts.flatMap fun part => (textOr part).splitOn ';').getD i [])) = parts
    at hfields ⊢
  constructor
  · intro hsome
    by_cases hany : parts.any Option.isSome = true
    · rw [if_pos hany] at hsome
      obtain rfl := Option.some.inj hsome
      obtain ⟨part, hpart, hpresent⟩ := any_eq_true.mp hany
      exact ⟨⟨part, hpart, Option.isSome_iff_ne_none.mp hpresent⟩, hfields.mp rfl⟩
    · rw [if_neg hany] at hsome
      cases hsome
  · rintro ⟨⟨part, hpart, hpresent⟩, hplain⟩
    rw [hfields.mpr hplain, if_pos]
    exact any_eq_true.mpr ⟨part, hpart, Option.isSome_iff_ne_none.mpr hpresent⟩

/-! ## The contact that comes back -/

section Contacts

variable {env : VcardEnv} {contact : Contact}

theorem vcardToContact_contactToVcard (h : contact.CleanParts)
    (hid : OneLine contact.sourceId.toList) (draw : VcardDraw) :
    vcardToContact env draw (contactToVcard env contact) =
      .ok ((parsedContact env contact).contact draw (contactLines env contact)) := by
  have hne : contactLines env contact ≠ [] := by simp [contactLines]
  have hmark : ∀ {line : List Char} {mark : String}, line ∈ contactLines env contact →
      eqIgnoreAsciiCase (trim line) mark.toList = true →
        ((contactLines env contact).any fun line =>
          eqIgnoreAsciiCase (trim line) mark.toList) = true :=
    fun hline hmark => any_eq_true.mpr ⟨_, hline, hmark⟩
  have hbegin := @hmark (contentLine "BEGIN" "VCARD".toList) "BEGIN:VCARD"
    (by simp [contactLines]) (by decide)
  have hend := @hmark (contentLine "END" "VCARD".toList) "END:VCARD"
    (by simp [contactLines]) (by decide)
  simp only [vcardToContact, contactToVcard,
    strLines_unfoldLines_foldLine hne (contentLine_of_mem_contactLines h env hid), hend,
    foldl_readLine_contactLines h]
  rfl

theorem sameDetails_iff (h : contact.CleanParts) (draw : VcardDraw)
    (lines : List (List Char)) :
    SameDetails contact ((parsedContact env contact).contact draw lines) ↔ contact.Writable := by
  have hname := @contact_name_eq_iff env contact h draw lines
  have haddresses : ((parsedContact env contact).addresses.map (·.parts)) =
      contact.addresses.map (·.parts) ↔ ∀ address ∈ contact.addresses, address.Writable := by
    rw [parsedContact, map_filterMap, filterMap_eq_map_iff_forall_eq_some]
    exact forall₂_congr fun address haddress =>
      map_parts_readAddress_eq_iff (h.addresses address haddress)
  have horganization := readOrganization_eq_iff h.organization
  constructor
  · intro hsame
    obtain ⟨hnamed, hparts⟩ := hname.mp hsame.name
    exact ⟨hnamed, hparts, haddresses.mp hsame.addresses, horganization.mp hsame.organization⟩
  · intro hwritable
    refine ⟨hname.mpr ⟨hwritable.named, hwritable.name⟩, ?_, ?_,
      haddresses.mpr hwritable.addresses, horganization.mpr hwritable.organization⟩
    · simp [Parsed.contact, parsedContact, readEmail]
    · simp [Parsed.contact, parsedContact, readPhone]

end Contacts

/-! ## Round trips -/

/-- Case mappings of ASCII, and one time. -/
def plainEnv : VcardEnv where
  upper c := [c]
  lowercase text := text.map Char.toLower
  rev _ := "20260101T000000Z".toList
  oneLine_rev _ := by decide

/-- A contact at the given organisation. -/
def employee (organization : String) : Contact where
  id := 1
  name := ⟨"Ada", "King, Lovelace", none, none, some "Augusta"⟩
  emails := [⟨"ada@example.org", some .work, some true⟩]
  phones := [⟨"+44 20 7946 0000", some .mobile, none⟩]
  addresses := [⟨some "12, St James's Sq.: left", some "London", none, none, none, none⟩]
  organization := some organization
  title := none
  birthday := none
  photoUrl := none
  notes := none
  groups := []
  source := "local"
  sourceId := "ada-1"
  extensions := none
  createdAt := 0
  updatedAt := 0

theorem cleanParts_employee {organization : String} (h : CleanText organization.toList) :
    (employee organization).CleanParts where
  given := Or.inr (show CleanText "Ada".toList by decide)
  family := Or.inr (show CleanText "King, Lovelace".toList by decide)
  middle := (cleanPart_some _).mpr (by decide)
  namePrefix := cleanPart_none
  suffix := cleanPart_none
  emails := forall_mem_singleton.mpr (by decide)
  phones := forall_mem_singleton.mpr (by decide)
  addresses := by
    refine forall_mem_singleton.mpr ?_
    simp only [ContactAddress.parts, forall_mem_cons, cleanPart_some, cleanPart_none, not_mem_nil,
      false_imp_iff, implies_true]
    decide
  organization := (cleanPart_some _).mpr h

/-- A contact is read back exactly if the vCard carries it. -/
theorem roundTrips_iff_writable (env : VcardEnv) (draw : VcardDraw) {contact : Contact}
    (h : contact.CleanParts) (hid : OneLine contact.sourceId.toList) :
    RoundTrips env draw contact ↔ contact.Writable := by
  rw [RoundTrips, vcardToContact_contactToVcard h hid]
  simp only [Except.ok.injEq, exists_eq_left']
  exact sameDetails_iff h draw _

theorem roundTrips_employee :
    RoundTrips plainEnv ⟨2, 3, 0⟩ (employee "Smith, Jones\\nobody: Sons") := by
  refine (roundTrips_iff_writable _ _ (cleanParts_employee (by decide)) (by decide)).mpr ?_
  have hplain : ∀ text : String, decodeEscapedValue text.toList = text.toList →
      ¬HasEscape (textOr (some text)) := fun text => (decode_eq_self_iff text.toList).mp
  have hnone : ¬HasEscape (textOr none) := (decode_eq_self_iff []).mp rfl
  refine ⟨Or.inl (by decide), by decide, forall_mem_singleton.mpr ⟨?_, ?_⟩, by decide⟩
  · exact ⟨some "London", by decide, by decide⟩
  · simp only [ContactAddress.parts, forall_mem_cons, hnone, not_mem_nil, false_imp_iff,
      implies_true]
    exact ⟨⟨by decide, hplain _ (by decide)⟩, ⟨by decide, hplain _ (by decide)⟩,
      by decide, by decide, by decide⟩

/-- The escaped semicolon of an organisation cuts it. -/
theorem not_roundTrips_employee :
    (employee "Smith; Sons").CleanParts ∧ OneLine (employee "Smith; Sons").sourceId.toList ∧
      ¬RoundTrips plainEnv ⟨2, 3, 0⟩ (employee "Smith; Sons") := by
  have hclean : (employee "Smith; Sons").CleanParts := cleanParts_employee (by decide)
  have hid : OneLine (employee "Smith; Sons").sourceId.toList := by decide
  refine ⟨hclean, hid, ?_⟩
  rintro ⟨contact', hread, hsame⟩
  rw [vcardToContact_contactToVcard hclean hid] at hread
  obtain rfl := Except.ok.inj hread
  exact (readOrganization_eq_iff hclean.organization).mp hsame.organization (by decide)

end LifeEngine.Dav
