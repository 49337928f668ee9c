/-
# NetFT.XmlConfig — the scanner of the sensor's configuration (`xml_config.cpp`).

A byte string is scanned in one pass: `Scan` has the locals of `extract_required_fields`, and what is
left of the input stands for its position.  An error is the text of the `DiscoveryError`.

* `scan` is the loop; every iteration shortens the input (`scanStep_length`), so it ends.
* The equations of `scan` say what an iteration makes of each kind of markup; nothing later unfolds it.
-/
import Mathlib.Data.Fin.VecNotation
import Mathlib.Data.List.FinRange
import NetFT.Library.Search

namespace NetFT.XmlConfig

set_option autoImplicit false

open Library (splitFirst Until splitFirst_eq_some_iff splitFirst_length)

/-- The bytes of a literal. -/
def ascii (s : String) : List UInt8 := s.toList.map fun c => c.toNat.toUInt8

def kMaximumFieldLength : Nat := 128

/-- The index of a required tag. -/
abbrev TagIndex := Fin 5

/-- The five tags that a page must have. -/
def kRequiredTags : TagIndex → String := !["prodname", "cfgcpf", "cfgcpt", "scfgfu", "scfgtu"]

/-- The six blanks of ASCII. -/
def isAsciiWhitespace (character : UInt8) : Bool :=
  character == 0x20 || character == 0x09 || character == 0x0a || character == 0x0d ||
    character == 0x0c || character == 0x0b

/-- The bytes without the blanks around them. -/
def trimAsciiWhitespace (value : List UInt8) : List UInt8 :=
  (value.dropWhile isAsciiWhitespace).rdropWhile isAsciiWhitespace

/-- The index of a required tag by its name. -/
def requiredTagIndex (name : List UInt8) : Option TagIndex :=
  (List.finRange 5).find? fun index => name = ascii (kRequiredTags index)

/-! ## Bytes of markup -/

def lt : UInt8 := 0x3c
def gt : UInt8 := 0x3e
def slash : UInt8 := 0x2f

def isQuote (character : UInt8) : Bool := character == 0x27 || character == 0x22

/-- `find_tag_end`: the content of the tag, and what follows it. -/
def findTagEnd (quote : Option UInt8) : List UInt8 → Option (List UInt8 × List UInt8)
  | [] => none
  | character :: xml =>
    let next (quote : Option UInt8) : Option (List UInt8 × List UInt8) :=
      (findTagEnd quote xml).map fun (content, rest) => (character :: content, rest)
    match quote with
    | some opening => next (if character = opening then none else some opening)
    | none =>
      if isQuote character then next (some character)
      else if character = gt then some ([], xml)
      else next none

/-! ## The state of the scan -/

/-- An open element, with the tag it is if it is required. -/
structure OpenElement where
  name : List UInt8
  requiredIndex : Option TagIndex
  deriving DecidableEq, Repr

/-- The text of each required tag. -/
abbrev RequiredFields := TagIndex → List UInt8

/-- The state of the scanner. -/
structure Scan where
  fields : RequiredFields := fun _ => []
  seen : TagIndex → Bool := fun _ => false
  /-- The innermost element first. -/
  elements : List OpenElement := []

namespace Scan

/-- The required field whose text is read. -/
def current (s : Scan) : Option TagIndex :=
  match s.elements with
  | [] => none
  | element :: _ => element.requiredIndex

/-- Text goes to the innermost element if that is a required one. -/
def appendRequiredText (s : Scan) (text : List UInt8) : Scan :=
  match s.current with
  | none => s
  | some index => { s with fields := Function.update s.fields index (s.fields index ++ text) }

end Scan

def malformedMarkup : String := "sensor configuration contains malformed markup"
def malformedNesting : String := "sensor configuration contains malformed element nesting"
def unterminatedMarkup : String := "sensor configuration contains unterminated markup"

/-- The error of a required tag that is missing or comes twice. -/
def notOnce (index : TagIndex) : String :=
  "sensor configuration field '" ++ kRequiredTags index ++ "' must appear exactly once"

/-- The end tag with the trimmed content `tag`. -/
def scanEndTag (s : Scan) (tag : List UInt8) : Except String Scan :=
  let name := trimAsciiWhitespace (tag.drop 1)
  match s.elements with
  | [] => .error malformedNesting
  | element :: elements =>
    if name = [] ∨ name.any (fun c => isAsciiWhitespace c || c == slash) ∨ element.name ≠ name then
      .error malformedNesting
    else .ok { s with elements }

/-- The start tag or self-closing tag with the trimmed content `tag`. -/
def scanStartTag (s : Scan) (tag : List UInt8) : Except String Scan :=
  let selfClosing : Bool := tag.getLast? = some slash
  let tag := if selfClosing then trimAsciiWhitespace tag.dropLast else tag
  let name := tag.takeWhile fun c => !isAsciiWhitespace c
  let opened (s : Scan) : Scan :=
    if selfClosing then s
    else { s with elements := { name, requiredIndex := requiredTagIndex name } :: s.elements }
  if name = [] ∨ name.head? = some slash then .error malformedMarkup
  else if s.current.isSome then .error "sensor configuration fields must contain text only"
  else
    match requiredTagIndex name with
    | none => .ok (opened s)
    | some index =>
      if s.seen index then .error (notOnce index)
      else .ok (opened { s with seen := Function.update s.seen index true })

/-- One tag: an end tag, a start tag, or both in one. -/
def scanTag (s : Scan) (content : List UInt8) : Except String Scan :=
  let tag := trimAsciiWhitespace content
  if tag = [] then .error malformedMarkup
  else if tag.head? = some slash then scanEndTag s tag
  else scanStartTag s tag

/-- The markup that begins with the next byte. -/
def scanMarkup (s : Scan) (xml : List UInt8) : Except String (Scan × List UInt8) :=
  if ascii "<!--" <+: xml then
    match splitFirst (ascii "-->") (xml.drop 4) with
    | none => .error "sensor configuration contains an unterminated comment"
    | some (_, rest) => .ok (s, rest)
  else if ascii "<![CDATA[" <+: xml then
    match splitFirst (ascii "]]>") (xml.drop 9) with
    | none => .error "sensor configuration contains unterminated CDATA"
    | some (text, rest) => .ok (s.appendRequiredText text, rest)
  else if ascii "<?" <+: xml then
    match splitFirst (ascii "?>") (xml.drop 2) with
    | none => .error unterminatedMarkup
    | some (_, rest) => .ok (s, rest)
  else if ascii "<!" <+: xml then .error "sensor configuration contains unsupported markup"
  else
    match findTagEnd none (xml.drop 1) with
    | none => .error unterminatedMarkup
    | some (content, rest) => (scanTag s content).map fun s => (s, rest)

/-- One iteration: the text up to the next markup, and the markup. -/
def scanStep (s : Scan) (xml : List UInt8) : Except String (Scan × List UInt8) :=
  let s := s.appendRequiredText (xml.takeWhile (· != lt))
  match xml.dropWhile (· != lt) with
  | [] => .ok (s, [])
  | markup => scanMarkup s markup

/-! ## The loop -/

/-- A tag takes at least its `>`. -/
theorem findTagEnd_length {quote : Option UInt8} {xml content rest : List UInt8}
    (h : findTagEnd quote xml = some (content, rest)) : rest.length < xml.length := by
  induction xml generalizing quote content with
  | nil => cases h
  | cons character xml ih =>
    have hnext : ∀ quote', (findTagEnd quote' xml).map (fun (content, rest) =>
        (character :: content, rest)) = some (content, rest) → rest.length < (character :: xml).length := by
      intro quote' hmap
      obtain ⟨⟨content', rest'⟩, hfind, heq⟩ := Option.map_eq_some_iff.mp hmap
      cases heq
      exact (ih hfind).trans (by simp)
    cases quote with
    | some opening => exact hnext _ h
    | none =>
      simp only [findTagEnd] at h
      split_ifs at h
      · exact hnext _ h
      · cases h
        simp
      · exact hnext _ h

/-- Markup takes at least a byte, so the scan ends. -/
theorem scanMarkup_length {s s' : Scan} {xml rest : List UInt8}
    (h : scanMarkup s xml = .ok (s', rest)) : rest.length < xml.length := by
  have hdrop : ∀ {n : Nat} {pattern body : List UInt8}, pattern ≠ [] →
      splitFirst pattern (xml.drop n) = some (body, rest) → rest.length < xml.length := by
    intro n pattern body hpattern hsplit
    have hless := splitFirst_length hpattern hsplit
    rw [List.length_drop] at hless
    omega
  simp only [scanMarkup] at h
  split_ifs at h
  · split at h
    · cases h
    · rename_i hsplit
      cases h
      exact hdrop (by decide) hsplit
  · split at h
    · cases h
    · rename_i hsplit
      cases h
      exact hdrop (by decide) hsplit
  · split at h
    · cases h
    · rename_i hsplit
      cases h
      exact hdrop (by decide) hsplit
  · split at h
    · cases h
    · rename_i content rest' hend
      cases htag : scanTag s content with
      | error what =>
        rw [htag] at h
        cases h
      | ok s'' =>
        rw [htag] at h
        cases h
        have hless := findTagEnd_length hend
        rw [List.length_drop] at hless
        omega

/-- Every iteration shortens what is left. -/
theorem scanStep_length {s s' : Scan} {xml rest : List UInt8} (hxml : xml ≠ [])
    (h : scanStep s xml = .ok (s', rest)) : rest.length < xml.length := by
  simp only [scanStep] at h
  split at h
  · cases h
    exact List.length_pos_of_ne_nil hxml
  · have hless := scanMarkup_length h
    exact hless.trans_le (List.dropWhile_suffix _).length_le

/-- The scan of a page, one piece of markup or text after the other. -/
def scan (s : Scan) (xml : List UInt8) : Except String Scan :=
  if _ : xml = [] then .ok s
  else
    match _ : scanStep s xml with
    | .error what => .error what
    | .ok (s', rest) => scan s' rest
termination_by xml.length
decreasing_by exact scanStep_length ‹_› ‹_›

/-! ## The end of the scan -/

/-- The last loop of `extract_required_fields`: the value of one field. -/
def Scan.field (s : Scan) (index : TagIndex) : Except String (List UInt8) :=
  if s.seen index = false then
    -- legacy firmware may omit the display name
    if index = 0 then .ok (ascii "ATI Net F/T") else .error (notOnce index)
  else
    let value := trimAsciiWhitespace (s.fields index)
    if value = [] then
      .error ("sensor configuration field '" ++ kRequiredTags index ++ "' is empty")
    else if kMaximumFieldLength < value.length then
      .error ("sensor configuration field '" ++ kRequiredTags index ++ "' is too long")
    else .ok value

/-- The end of the page: no element is open, and each required tag has come once. -/
def Scan.finish (s : Scan) : Except String RequiredFields := do
  if s.elements ≠ [] then .error malformedNesting
  let prodname ← s.field 0
  let cfgcpf ← s.field 1
  let cfgcpt ← s.field 2
  let scfgfu ← s.field 3
  let scfgtu ← s.field 4
  return ![prodname, cfgcpf, cfgcpt, scfgfu, scfgtu]

/-- `extract_required_fields`. -/
def extractRequiredFields (xml : List UInt8) : Except String RequiredFields := do
  let s ← scan {} xml
  s.finish

end NetFT.XmlConfig
