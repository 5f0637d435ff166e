import LifeEngine.Dav.Text
import LifeEngine.Types.Pipeline

/-!
# vCards of contacts

The serialiser of the CardDAV plugin: a contact is written as a vCard with folded lines,
and a vCard is read into a contact.  Texts are lists of characters.
-/

namespace LifeEngine.Dav

open Support

/-! ## Contacts -/

inductive ContactInfoType where
  | home
  | work
  | other
  deriving DecidableEq, Repr

inductive PhoneType where
  | mobile
  | home
  | work
  | fax
  | other
  deriving DecidableEq, Repr

structure ContactName where
  given : String
  family : String
  namePrefix : Option String
  suffix : Option String
  middle : Option String
  deriving DecidableEq, Repr

structure ContactEmail where
  address : String
  emailType : Option ContactInfoType
  primary : Option Bool
  deriving DecidableEq, Repr

structure ContactPhone where
  number : String
  phoneType : Option PhoneType
  primary : Option Bool
  deriving DecidableEq, Repr

structure ContactAddress where
  street : Option String
  city : Option String
  region : Option String
  postalCode : Option String
  country : Option String
  addressType : Option ContactInfoType
  deriving DecidableEq, Repr

/-- A contact.  A birthday is a number of days. -/
structure Contact where
  id : Uuid
  name : ContactName
  emails : List ContactEmail
  phones : List ContactPhone
  addresses : List ContactAddress
  organization : Option String
  title : Option String
  birthday : Option Int
  photoUrl : Option String
  notes : Option String
  groups : List String
  source : String
  sourceId : String
  extensions : Option Json
  createdAt : Timestamp
  updatedAt : Timestamp

/-- Unicode case mappings, and the text of a time. -/
structure VcardEnv where
  /-- `char::to_uppercase` outside of ASCII. -/
  upper : Char → List Char
  /-- `str::to_lowercase`. -/
  lowercase : List Char → List Char
  rev : Timestamp → List Char
  oneLine_rev : ∀ t, OneLine (rev t)

def toUppercase (env : VcardEnv) (text : List Char) : List Char :=
  text.flatMap fun c => if c.toNat < 128 then [c.toUpper] else env.upper c

def eqIgnoreAsciiCase (a b : List Char) : Bool :=
  a.map Char.toLower = b.map Char.toLower

/-! ## Writing -/

def contactInfoTypeToVcard : ContactInfoType → String
  | .home => "HOME"
  | .work => "WORK"
  | .other => "OTHER"

def phoneTypeToVcard : PhoneType → String
  | .mobile => "CELL"
  | .home => "HOME"
  | .work => "WORK"
  | .fax => "FAX"
  | .other => "OTHER"

/-- `as_deref().unwrap_or("")`. -/
def textOr (text : Option String) : List Char :=
  (text.getD "").toList

def displayName (name : ContactName) : List Char :=
  [' '].intercalate ((name.namePrefix.toList ++ [name.given] ++ name.middle.toList ++
    [name.family] ++ name.suffix.toList).map String.toList)

def escapeVcardValue (value : List Char) : List Char :=
  replaceChar '\n' ['\\', 'n'] (replaceChar ';' ['\\', ';']
    (replaceChar ',' ['\\', ','] (replaceChar '\\' ['\\', '\\'] value)))

/-- A property with its parameters, and its value. -/
def contentLine (prop : String) (value : List Char) : List Char :=
  prop.toList ++ ':' :: value

/-- The parts of a name in the order of the property `N`. -/
def ContactName.parts (name : ContactName) : List (List Char) :=
  [name.family.toList, name.given.toList, textOr name.middle, textOr name.namePrefix,
    textOr name.suffix]

def nameValue (name : ContactName) : List Char :=
  [';'].intercalate (name.parts.map escapeVcardValue)

def emailProp (emailType : Option ContactInfoType) (primary : Option Bool) : String :=
  "EMAIL" ++
    (match emailType with
    | some t => ";TYPE=" ++ contactInfoTypeToVcard t
    | none => "") ++
    if primary = some true then ";PREF=1" else ""

def phoneProp (phoneType : Option PhoneType) : String :=
  "TEL" ++
    match phoneType with
    | some t => ";TYPE=" ++ phoneTypeToVcard t
    | none => ""

/-- The parts of an address in the order of the property `ADR`. -/
def ContactAddress.parts (address : ContactAddress) : List (Option String) :=
  [address.street, address.city, address.region, address.postalCode, address.country]

/-- The value of `ADR`, which begins with two empty parts. -/
def addressValue (address : ContactAddress) : List Char :=
  [';'].intercalate ([] :: [] :: address.parts.map textOr)

/-- The lines of a vCard before they are folded. -/
def contactLines (env : VcardEnv) (contact : Contact) : List (List Char) :=
  [contentLine "BEGIN" "VCARD".toList, contentLine "VERSION" "4.0".toList,
    contentLine "UID" contact.sourceId.toList,
    contentLine "FN" (escapeVcardValue (displayName contact.name)),
    contentLine "N" (nameValue contact.name)] ++
  contact.emails.map (fun email =>
    contentLine (emailProp email.emailType email.primary) email.address.toList) ++
  contact.phones.map (fun phone =>
    contentLine (phoneProp phone.phoneType) phone.number.toList) ++
  contact.addresses.map (fun address => contentLine "ADR" (addressValue address)) ++
  contact.organization.toList.map (fun org =>
    contentLine "ORG" (escapeVcardValue org.toList)) ++
  [contentLine "REV" (env.rev contact.updatedAt), contentLine "END" "VCARD".toList]

/-- `str::len`. -/
def byteLen (text : List Char) : Nat :=
  text.foldl (fun length c => length + c.utf8Size) 0

/-- The loop of `fold_line`: what is written, and the current chunk with its length in bytes. -/
structure FoldState where
  result : List Char
  chunk : List Char
  chunkByteLen : Nat
  first : Bool

/-- What is written when the chunk ends. -/
def FoldState.emit (s : FoldState) : List Char :=
  (if s.first then s.result else s.result ++ ['\r', '\n', ' ']) ++ s.chunk

def foldStep (s : FoldState) (c : Char) : FoldState :=
  let limit := if s.first then 75 else 74
  if s.chunkByteLen + c.utf8Size > limit then ⟨s.emit, [c], c.utf8Size, false⟩
  else { s with chunk := s.chunk ++ [c], chunkByteLen := s.chunkByteLen + c.utf8Size }

def foldLine (line : List Char) : List Char :=
  if byteLen line ≤ 75 then line
  else
    let s := line.foldl foldStep ⟨[], [], 0, true⟩
    if s.chunk.isEmpty then s.result else s.emit

def contactToVcard (env : VcardEnv) (contact : Contact) : List Char :=
  ['\r', '\n'].intercalate ((contactLines env contact).map foldLine)

/-! ## Reading -/

def parseContactInfoType (s : List Char) : ContactInfoType :=
  if s = "home".toList then .home else if s = "work".toList then .work else .other

def parsePhoneType (s : List Char) : PhoneType :=
  if s = "mobile".toList ∨ s = "cell".toList then .mobile
  else if s = "home".toList then .home
  else if s = "work".toList then .work
  else if s = "fax".toList then .fax
  else .other

/-- The name of a property, and its parameters. -/
def parsePropertyName (prop : List Char) : List Char × List (List Char × List Char) :=
  let parts := prop.splitOn ';'
  (parts.headD [], parts.tail.map fun p => (cut ['='] p).getD ("TYPE".toList, p))

def extractTypeParam (env : VcardEnv) (params : List (List Char × List Char)) :
    Option (List Char) :=
  (params.find? fun p => eqIgnoreAsciiCase p.1 "TYPE".toList).map fun p =>
    env.lowercase ((p.2.splitOn ',').headD [])

/-- Whether the parameters of `EMAIL` mark the primary address. -/
def marksPrimary (params : List (List Char × List Char)) : Bool :=
  params.any fun p => eqIgnoreAsciiCase p.1 "PREF".toList ||
    (eqIgnoreAsciiCase p.1 "TYPE".toList &&
      (p.2.splitOn ',').any fun part => eqIgnoreAsciiCase (trim part) "pref".toList)

/-- What `vcard_to_contact` has read so far. -/
structure Parsed where
  given : List Char
  family : List Char
  middle : Option String
  namePrefix : Option String
  suffix : Option String
  emails : List ContactEmail
  phones : List ContactPhone
  addresses : List ContactAddress
  organization : Option String
  sourceId : List Char

def Parsed.empty : Parsed := ⟨[], [], none, none, none, [], [], [], none, []⟩

/-- A text that is not empty, or else the given one. -/
def keepNonEmpty (text : List Char) (old : Option String) : Option String :=
  if text.isEmpty then old else some (String.ofList text)

def readName (p : Parsed) (value : List Char) : Parsed :=
  let parts := value.splitOn ';'
  { p with
    family := decodeEscapedValue (parts.getD 0 [])
    given := decodeEscapedValue (parts.getD 1 [])
    middle := keepNonEmpty (decodeEscapedValue (parts.getD 2 [])) p.middle
    namePrefix := keepNonEmpty (decodeEscapedValue (parts.getD 3 [])) p.namePrefix
    suffix := keepNonEmpty (decodeEscapedValue (parts.getD 4 [])) p.suffix }

def readEmail (env : VcardEnv) (params : List (List Char × List Char)) (value : List Char) :
    ContactEmail :=
  ⟨String.ofList value, (extractTypeParam env params).map parseContactInfoType,
    if marksPrimary params then some true else none⟩

def readPhone (env : VcardEnv) (params : List (List Char × List Char)) (value : List Char) :
    ContactPhone :=
  ⟨String.ofList value, (extractTypeParam env params).map parsePhoneType, none⟩

/-- The address in a value, unless it has no parts. -/
def readAddress (value : List Char) : Option ContactAddress :=
  let parts := value.splitOn ';'
  let part (i : Nat) := (nonEmpty (parts.getD i [])).map String.ofList
  if (part 2).isSome || (part 3).isSome || (part 4).isSome || (part 5).isSome ||
      (part 6).isSome then
    some ⟨part 2, part 3, part 4, part 5, part 6, none⟩
  else none

def readProperty (env : VcardEnv) (p : Parsed) (prop value : List Char) : Parsed :=
  let (propName, params) := parsePropertyName prop
  let name := toUppercase env propName
  if name = "N".toList then readName p value
  else if name = "EMAIL".toList then
    { p with emails := p.emails ++ [readEmail env params value] }
  else if name = "TEL".toList then
    { p with phones := p.phones ++ [readPhone env params value] }
  else if name = "ADR".toList then
    { p with addresses := p.addresses ++ (readAddress value).toList }
  else if name = "ORG".toList then
    { p with
      organization :=
        keepNonEmpty (decodeEscapedValue ((value.splitOn ';').headD [])) p.organization }
  else if name = "UID".toList then { p with sourceId := value }
  else p

def readLine (env : VcardEnv) (p : Parsed) (line : List Char) : Parsed :=
  if (trim line).isEmpty then p
  else
    match cut [':'] (trim line) with
    | some (prop, value) => readProperty env p prop value
    | none => p

/-- The value of the first `FN`. -/
def formattedName (lines : List (List Char)) : Option (List Char) :=
  lines.findSome? fun line =>
    match cut [':'] (trim line) with
    | some (prop, value) =>
      if eqIgnoreAsciiCase (parsePropertyName prop).1 "FN".toList then
        some (decodeEscapedValue value)
      else none
    | none => none

/-- Given name and family name, from `FN` if `N` has neither. -/
def givenAndFamily (lines : List (List Char)) (p : Parsed) : List Char × List Char :=
  let names :=
    if p.given.isEmpty && p.family.isEmpty then
      match formattedName lines with
      | some name => (cut [' '] name).getD (name, [])
      | none => ([], [])
    else (p.given, p.family)
  if names.1.isEmpty && names.2.isEmpty then ("(unnamed)".toList, []) else names

/-- The ids and the time that `vcard_to_contact` draws. -/
structure VcardDraw where
  id : Uuid
  sourceId : Uuid
  now : Timestamp

def Parsed.contact (draw : VcardDraw) (lines : List (List Char)) (p : Parsed) : Contact :=
  let names := givenAndFamily lines p
  { id := draw.id
    name := ⟨String.ofList names.1, String.ofList names.2, p.namePrefix, p.suffix, p.middle⟩
    emails := p.emails
    phones := p.phones
    addresses := p.addresses
    organization := p.organization
    title := none
    birthday := none
    photoUrl := none
    notes := none
    groups := []
    source := "carddav-api"
    sourceId := if p.sourceId.isEmpty then uuidText draw.sourceId else String.ofList p.sourceId
    extensions := none
    createdAt := draw.now
    updatedAt := draw.now }

def vcardToContact (env : VcardEnv) (draw : VcardDraw) (vcardData : List Char) :
    Except String Contact :=
  let lines := strLines (unfoldLines vcardData)
  let marks (mark : String) := lines.any fun line => eqIgnoreAsciiCase (trim line) mark.toList
  if !marks "BEGIN:VCARD" || !marks "END:VCARD" then
    .error "invalid vCard: missing BEGIN:VCARD or END:VCARD"
  else .ok ((lines.foldl (readLine env) .empty).contact draw lines)

end LifeEngine.Dav
