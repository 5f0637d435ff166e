import LifeEngine.Support.Text
import Mathlib.Data.List.DropRight

/-!
# Lines and values of vCards

`dav_utils::text`: unfolding of continued lines and decoding of escaped values, with the
functions on texts that the parsers use.
-/

namespace LifeEngine.Dav

open Support List

/-! ## Characters -/

/-- `char::is_whitespace`. -/
def isWhitespace (c : Char) : Bool :=
  (9 ≤ c.toNat ∧ c.toNat ≤ 13) ∨ c.toNat = 0x20 ∨ c.toNat = 0x85 ∨ c.toNat = 0xA0 ∨
    c.toNat = 0x1680 ∨ (0x2000 ≤ c.toNat ∧ c.toNat ≤ 0x200A) ∨ c.toNat = 0x2028 ∨
    c.toNat = 0x2029 ∨ c.toNat = 0x202F ∨ c.toNat = 0x205F ∨ c.toNat = 0x3000

/-- `char::is_control`. -/
def isControl (c : Char) : Bool :=
  c.toNat < 0x20 ∨ (0x7F ≤ c.toNat ∧ c.toNat ≤ 0x9F)

/-- `str::trim_end`. -/
def trimEnd (text : List Char) : List Char :=
  text.rdropWhile isWhitespace

/-- `str::trim`. -/
def trim (text : List Char) : List Char :=
  trimEnd (text.dropWhile isWhitespace)

/-- A text that `str::trim` leaves alone. -/
def Trimmed (text : List Char) : Prop :=
  (∀ c ∈ text.head?, isWhitespace c = false) ∧ ∀ c ∈ text.getLast?, isWhitespace c = false

variable {text line : List Char} {lines chunks : List (List Char)}

theorem trimEnd_eq_self (h : ∀ c ∈ text.getLast?, isWhitespace c = false) :
    trimEnd text = text := by
  rw [trimEnd, rdropWhile_eq_self_iff]
  intro hne
  simpa using h _ (getLast_mem_getLast? hne)

theorem trim_of_head (h : ∀ c ∈ text.head?, isWhitespace c = false) : trim text = trimEnd text := by
  cases text with
  | nil => rfl
  | cons c text =>
    have hc : ¬isWhitespace c = true := by simpa using h c rfl
    rw [trim, dropWhile_cons_of_neg hc]

theorem trim_eq_self (h : Trimmed text) : trim text = text := by
  rw [trim_of_head h.1, trimEnd_eq_self h.2]

theorem trimEnd_append_cons {c : Char} (hc : isWhitespace c = false) (front text : List Char) :
    trimEnd (front ++ c :: text) = front ++ c :: trimEnd text := by
  rw [trimEnd, rdropWhile, reverse_append, reverse_cons, append_assoc, dropWhile_append]
  split
  · simp_all [trimEnd]
  · simp [trimEnd, rdropWhile]

/-! ## Escaped values -/

/-- The character that is written with a backslash. -/
def unescape (c : Char) : Option Char :=
  if c = 'n' then some '\n'
  else if c = ',' then some ','
  else if c = ';' then some ';'
  else if c = '\\' then some '\\'
  else none

/-- `decode_escaped_value`. Any other backslash stands for itself. -/
def decodeEscapedValue : List Char → List Char
  | [] => []
  | [c] => [c]
  | c :: d :: rest =>
    if c = '\\' then
      match unescape d with
      | some e => e :: decodeEscapedValue rest
      | none => c :: decodeEscapedValue (d :: rest)
    else c :: decodeEscapedValue (d :: rest)

/-- `non_empty`. -/
def nonEmpty (text : List Char) : Option (List Char) :=
  if (trim text).isEmpty then none else some (decodeEscapedValue (trim text))

theorem decode_cons_of_ne {c : Char} (hc : c ≠ '\\') (rest : List Char) :
    decodeEscapedValue (c :: rest) = c :: decodeEscapedValue rest := by
  cases rest with
  | nil => rfl
  | cons d rest => rw [decodeEscapedValue, if_neg hc]

theorem decode_escape {d e : Char} (hd : unescape d = some e) (rest : List Char) :
    decodeEscapedValue ('\\' :: d :: rest) = e :: decodeEscapedValue rest := by
  rw [decodeEscapedValue, if_pos rfl, hd]

theorem decode_backslash {d : Char} (hd : unescape d = none) (rest : List Char) :
    decodeEscapedValue ('\\' :: d :: rest) = '\\' :: decodeEscapedValue (d :: rest) := by
  rw [decodeEscapedValue, if_pos rfl, hd]

/-- A backslash stands before a character that it escapes. -/
def HasEscape (text : List Char) : Prop :=
  ∃ d e, unescape d = some e ∧ ['\\', d] <:+: text

theorem hasEscape_cons_cons_iff {c d : Char} {rest : List Char} :
    HasEscape (c :: d :: rest) ↔ (c = '\\' ∧ ∃ e, unescape d = some e) ∨ HasEscape (d :: rest) := by
  constructor
  · rintro ⟨x, e, hx, hinfix⟩
    rcases infix_cons_iff.mp hinfix with hstart | hrest
    · rw [cons_prefix_cons, cons_prefix_cons] at hstart
      obtain ⟨rfl, rfl, -⟩ := hstart
      exact Or.inl ⟨rfl, e, hx⟩
    · exact Or.inr ⟨x, e, hx, hrest⟩
  · rintro (⟨rfl, e, hd⟩ | ⟨x, e, hx, hinfix⟩)
    · exact ⟨d, e, hd, [], rest, rfl⟩
    · exact ⟨x, e, hx, hinfix.trans (suffix_cons c _).isInfix⟩

theorem length_decode_le (text : List Char) : (decodeEscapedValue text).length ≤ text.length := by
  induction text using decodeEscapedValue.induct with
  | case1 => simp [decodeEscapedValue]
  | case2 c => simp [decodeEscapedValue]
  | case3 d rest e hd ih =>
    rw [decode_escape hd]
    simp only [length_cons]
    omega
  | case4 d rest hd ih =>
    rw [decode_backslash hd]
    simpa using ih
  | case5 c d rest hc ih =>
    rw [decode_cons_of_ne hc]
    simpa using ih

/-- Decoding changes exactly the texts with an escape in them. -/
theorem decode_eq_self_iff (text : List Char) :
    decodeEscapedValue text = text ↔ ¬HasEscape text := by
  induction text using decodeEscapedValue.induct with
  | case1 => simp [decodeEscapedValue, HasEscape]
  | case2 c =>
    have hshort : ¬HasEscape [c] := by
      rintro ⟨d, e, -, hinfix⟩
      simpa using hinfix.length_le
    simp [decodeEscapedValue, hshort]
  | case3 d rest e hd ih =>
    rw [decode_escape hd, hasEscape_cons_cons_iff]
    refine iff_of_false ?_ (not_not_intro (Or.inl ⟨rfl, e, hd⟩))
    intro heq
    have hlength := congrArg List.length heq
    have hle := length_decode_le rest
    simp only [length_cons] at hlength
    omega
  | case4 d rest hd ih => simp [decode_backslash hd, hasEscape_cons_cons_iff, hd, ih]
  | case5 c d rest hc ih => simp [decode_cons_of_ne hc, hasEscape_cons_cons_iff, hc, ih]

theorem mem_of_mem_decode {c : Char} (hc : c ≠ '\n') (h : c ∈ decodeEscapedValue text) :
    c ∈ text := by
  induction text using decodeEscapedValue.induct with
  | case1 => exact h
  | case2 d => exact h
  | case3 d rest e hd ih =>
    rw [decode_escape hd] at h
    rcases mem_cons.mp h with rfl | h
    · unfold unescape at hd
      grind
    · exact mem_cons_of_mem _ (mem_cons_of_mem _ (ih h))
  | case4 d rest hd ih =>
    rw [decode_backslash hd] at h
    rcases mem_cons.mp h with rfl | h
    · exact mem_cons_self
    · exact mem_cons_of_mem _ (ih h)
  | case5 x d rest hx ih =>
    rw [decode_cons_of_ne hx] at h
    rcases mem_cons.mp h with rfl | h
    · exact mem_cons_self
    · exact mem_cons_of_mem _ (ih h)

/-! ## Lines -/

/-- The line without the carriage return at its end. -/
def stripCr (line : List Char) : List Char :=
  if line.getLast? = some '\r' then line.dropLast else line

/-- The lines between line feeds; an empty last one is none. -/
def linesOf : List (List Char) → List (List Char)
  | [] => []
  | [last] => if last.isEmpty then [] else [last]
  | line :: rest => stripCr line :: linesOf rest

/-- `str::lines`. -/
def strLines (text : List Char) : List (List Char) :=
  linesOf (text.splitOn '\n')

/-- `str::replace` of a line break by a line feed. -/
def replaceCrlf : List Char → List Char
  | [] => []
  | [c] => [c]
  | c :: d :: rest =>
    if c = '\r' ∧ d = '\n' then '\n' :: replaceCrlf rest else c :: replaceCrlf (d :: rest)

def normalizeBreaks (raw : List Char) : List Char :=
  replaceChar '\r' ['\n'] (replaceCrlf raw)

/-- One line of the loop of `unfold_lines`. -/
def unfoldLine (result line : List Char) : List Char :=
  if line.head? = some ' ' ∨ line.head? = some '\t' then result ++ line.tail
  else if result.isEmpty then line
  else result ++ '\n' :: line

def unfoldLines (raw : List Char) : List Char :=
  (strLines (normalizeBreaks raw)).foldl unfoldLine []

/-- A text without line breaks. -/
def OneLine (text : List Char) : Prop :=
  '\r' ∉ text ∧ '\n' ∉ text

theorem oneLine_iff : OneLine text ↔ ∀ c ∈ text, OneLine [c] := by
  simp only [OneLine]
  grind

theorem OneLine.stripCr_eq (h : OneLine line) : stripCr line = line := by
  rw [stripCr, if_neg]
  intro hlast
  exact h.1 (mem_of_getLast? hlast)

theorem linesOf_eq_self (h : ∀ line ∈ lines, OneLine line)
    (hlast : ∀ line ∈ lines.getLast?, line ≠ []) : linesOf lines = lines := by
  induction lines with
  | nil => rfl
  | cons line rest ih =>
    rw [forall_mem_cons] at h
    rcases rest with _ | ⟨next, rest⟩
    · have hne : line ≠ [] := hlast line rfl
      simp [linesOf, hne]
    · rw [linesOf, h.1.stripCr_eq, ih h.2 (by simpa using hlast)]
      simp

theorem strLines_intercalate (hne : lines ≠ []) (h : ∀ line ∈ lines, OneLine line)
    (hlast : ∀ line ∈ lines.getLast?, line ≠ []) :
    strLines (['\n'].intercalate lines) = lines := by
  rw [strLines, splitOn_intercalate '\n' (fun line hline => (h line hline).2) hne,
    linesOf_eq_self h hlast]

theorem replaceCrlf_append {front : List Char} (h : '\r' ∉ front) (rest : List Char) :
    replaceCrlf (front ++ rest) = front ++ replaceCrlf rest := by
  induction front with
  | nil => rfl
  | cons c front ih =>
    rw [mem_cons, not_or] at h
    have hc : ∀ text, replaceCrlf (c :: text) = c :: replaceCrlf text := by
      intro text
      cases text with
      | nil => rfl
      | cons d text =>
        rw [replaceCrlf, if_neg]
        exact fun hcd => h.1 hcd.1.symm
    rw [cons_append, hc, ih h.2, cons_append]

theorem replaceCrlf_intercalate (h : ∀ line ∈ lines, OneLine line) :
    replaceCrlf (['\r', '\n'].intercalate lines) = ['\n'].intercalate lines := by
  induction lines with
  | nil => rfl
  | cons line rest ih =>
    rw [forall_mem_cons] at h
    rcases rest with _ | ⟨next, rest⟩
    · simpa [replaceCrlf] using replaceCrlf_append h.1.1 []
    · rw [intercalate_cons_cons, intercalate_cons_cons, append_assoc,
        replaceCrlf_append h.1.1, ← ih h.2]
      simp [replaceCrlf]

theorem normalizeBreaks_intercalate (h : ∀ line ∈ lines, OneLine line) :
    normalizeBreaks (['\r', '\n'].intercalate lines) = ['\n'].intercalate lines := by
  rw [normalizeBreaks, replaceCrlf_intercalate h, replaceChar_of_not_mem]
  intro hmem
  rcases mem_intercalate hmem with heq | ⟨line, hline, hcr⟩
  · exact absurd heq (by decide)
  · exact (h line hline).1 hcr

/-! ## Folded lines -/

/-- A line that is folded between its chunks. -/
def folded (chunks : List (List Char)) : List Char :=
  ['\r', '\n', ' '].intercalate chunks

/-- The lines that a folded line takes up. -/
def foldedLines : List (List Char) → List (List Char)
  | [] => []
  | chunk :: chunks => chunk :: chunks.map (' ' :: ·)

/-- A line that can be told from a continuation. -/
structure ContentLine (line : List Char) : Prop where
  ne_nil : line ≠ []
  oneLine : OneLine line
  head : line.head? ≠ some ' ' ∧ line.head? ≠ some '\t'

theorem folded_eq (chunks : List (List Char)) :
    folded chunks = ['\r', '\n'].intercalate (foldedLines chunks) := by
  cases chunks with
  | nil => rfl
  | cons chunk chunks =>
    rw [folded, foldedLines]
    induction chunks generalizing chunk with
    | nil => simp
    | cons next chunks ih =>
      have hhead : ['\r', '\n'].intercalate ((' ' :: next) :: chunks.map (' ' :: ·)) =
          ' ' :: ['\r', '\n'].intercalate (next :: chunks.map (' ' :: ·)) :=
        intercalate_append_head _ [' '] _ _
      rw [intercalate_cons_cons, ih]
      simp

theorem foldl_unfoldLine_continuations (chunks : List (List Char)) (result : List Char) :
    (chunks.map (' ' :: ·)).foldl unfoldLine result = result ++ chunks.flatten := by
  induction chunks generalizing result with
  | nil => simp
  | cons chunk chunks ih => simp [unfoldLine, ih]

/-- Unfolding appends a folded line as a line of its own. -/
theorem foldl_unfoldLine_foldedLines (h : ContentLine chunks.flatten) (result : List Char) :
    (foldedLines chunks).foldl unfoldLine result =
      if result.isEmpty then chunks.flatten else result ++ '\n' :: chunks.flatten := by
  cases chunks with
  | nil => exact absurd rfl h.ne_nil
  | cons chunk chunks =>
    have hhead : ¬(chunk.head? = some ' ' ∨ chunk.head? = some '\t') := by
      cases chunk with
      | nil => simp
      | cons c chunk => simpa using h.head
    rw [foldedLines, foldl_cons, foldl_unfoldLine_continuations, unfoldLine, if_neg hhead]
    split <;> simp

theorem foldl_unfoldLine_of_ne_nil {lines : List (List (List Char))}
    (h : ∀ chunks ∈ lines, ContentLine chunks.flatten) {result : List Char}
    (hresult : result ≠ []) :
    (lines.flatMap foldedLines).foldl unfoldLine result =
      ['\n'].intercalate (result :: lines.map List.flatten) := by
  induction lines generalizing result with
  | nil => simp
  | cons chunks lines ih =>
    rw [forall_mem_cons] at h
    have hhead : ['\n'].intercalate
        ((result ++ '\n' :: chunks.flatten) :: lines.map List.flatten) =
          result ++ '\n' :: ['\n'].intercalate (chunks.flatten :: lines.map List.flatten) := by
      rw [append_cons result, intercalate_append_head, append_assoc]
      rfl
    rw [flatMap_cons, foldl_append, foldl_unfoldLine_foldedLines h.1,
      if_neg (by simpa using hresult), ih h.2 (by simp), hhead, map_cons,
      intercalate_cons_cons, append_assoc]
    rfl

theorem mem_foldedLines (hline : line ∈ foldedLines chunks) :
    ∃ chunk ∈ chunks, line = chunk ∨ line = ' ' :: chunk := by
  cases chunks with
  | nil => cases hline
  | cons chunk chunks =>
    rcases mem_cons.mp hline with rfl | hline
    · exact ⟨line, mem_cons_self, Or.inl rfl⟩
    · obtain ⟨next, hnext, rfl⟩ := mem_map.mp hline
      exact ⟨next, mem_cons_of_mem _ hnext, Or.inr rfl⟩

theorem oneLine_of_mem_foldedLines (h : OneLine chunks.flatten)
    (hline : line ∈ foldedLines chunks) : OneLine line := by
  obtain ⟨chunk, hchunk, hshape⟩ := mem_foldedLines hline
  rw [oneLine_iff] at h ⊢
  intro c hc
  rcases hshape with rfl | rfl
  · exact h c (mem_flatten_of_mem hchunk hc)
  · rcases mem_cons.mp hc with rfl | hc
    · simp [OneLine]
    · exact h c (mem_flatten_of_mem hchunk hc)

theorem ne_nil_of_getLast_foldedLines (h : chunks.flatten ≠ [])
    (hline : line ∈ (foldedLines chunks).getLast?) : line ≠ [] := by
  rcases chunks with _ | ⟨chunk, _ | ⟨next, chunks⟩⟩
  · cases hline
  · obtain rfl : chunk = line := by simpa [foldedLines] using hline
    simpa using h
  · rw [foldedLines, map_cons, getLast?_cons_cons, ← map_cons] at hline
    obtain ⟨last, -, rfl⟩ := mem_map.mp (mem_of_getLast? hline)
    simp

theorem unfoldLines_folded {lines : List (List (List Char))} (hne : lines ≠ [])
    (h : ∀ chunks ∈ lines, ContentLine chunks.flatten) :
    unfoldLines (['\r', '\n'].intercalate (lines.map folded)) =
      ['\n'].intercalate (lines.map List.flatten) := by
  have hlines : ∀ chunks ∈ lines, foldedLines chunks ≠ [] := by
    intro chunks hchunks
    have hflatten := (h chunks hchunks).ne_nil
    rcases chunks with _ | ⟨chunk, chunks⟩
    · exact absurd rfl hflatten
    · simp [foldedLines]
  have hraw : ['\r', '\n'].intercalate (lines.map folded) =
      ['\r', '\n'].intercalate (lines.flatMap foldedLines) := by
    rw [← intercalate_map_intercalate hlines]
    exact congrArg _ (map_congr_left fun chunks _ => folded_eq chunks)
  have hone : ∀ line ∈ lines.flatMap foldedLines, OneLine line := by
    intro line hline
    obtain ⟨chunks, hchunks, hline⟩ := mem_flatMap.mp hline
    exact oneLine_of_mem_foldedLines (h chunks hchunks).oneLine hline
  have hlast : ∀ line ∈ (lines.flatMap foldedLines).getLast?, line ≠ [] := by
    intro line hline
    obtain ⟨front, chunks, rfl⟩ := (eq_nil_or_concat lines).resolve_left hne
    have hmem : chunks ∈ front.concat chunks := by simp
    have hsome := getLast?_eq_some_getLast (hlines chunks hmem)
    rw [concat_eq_append, flatMap_append, flatMap_singleton, getLast?_append, hsome,
      Option.some_or, ← hsome] at hline
    exact ne_nil_of_getLast_foldedLines (h chunks hmem).ne_nil hline
  obtain ⟨chunks, lines, rfl⟩ := exists_cons_of_ne_nil hne
  rw [forall_mem_cons] at h
  have hphysical : (chunks :: lines).flatMap foldedLines ≠ [] := by
    exact append_ne_nil_of_left_ne_nil (hlines chunks mem_cons_self) _
  rw [hraw, unfoldLines, normalizeBreaks_intercalate hone,
    strLines_intercalate hphysical hone hlast, flatMap_cons, foldl_append,
    foldl_unfoldLine_foldedLines h.1, if_pos isEmpty_nil, foldl_unfoldLine_of_ne_nil h.2 h.1.ne_nil,
    map_cons]

end LifeEngine.Dav
