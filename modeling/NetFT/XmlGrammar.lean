/-
# NetFT.XmlGrammar — the grammar of a sensor configuration.

The documents that the scanner is meant to accept, stated without the scanner: a `Forest` is what stands
between a start tag and its end tag (or the whole document), so that elements nest by construction.

* `Leaf` is a text run, a comment, a CDATA section or a processing instruction; `TagContent` is what
  stands between the angle brackets of a tag.
* `Forest.Accepted`: the tags are well formed, the required elements have no element inside, and each
  occurs as often and has a text as long as it may.
* `Forest.field` is the value of a required field.
-/
import NetFT.XmlConfig

namespace NetFT.XmlConfig

set_option autoImplicit false

open Library (Until splitFirst splitFirst_eq_some_iff)

/-! ## Leaves -/

inductive Leaf where
  | text (run : List UInt8)
  | comment (body : List UInt8)
  | cdata (body : List UInt8)
  | instruction (body : List UInt8)

namespace Leaf

def bytes : Leaf → List UInt8
  | text run => run
  | comment body => ascii "<!--" ++ body ++ ascii "-->"
  | cdata body => ascii "<![CDATA[" ++ body ++ ascii "]]>"
  | instruction body => ascii "<?" ++ body ++ ascii "?>"

/-- A text run has no `<`; the others end where their terminator first occurs. -/
def Valid : Leaf → Prop
  | text run => lt ∉ run
  | comment body => Until (ascii "-->") body
  | cdata body => Until (ascii "]]>") body
  | instruction body => Until (ascii "?>") body

/-- What a leaf adds to the text of its element. -/
def content : Leaf → List UInt8
  | text run => run
  | cdata body => body
  | comment _ | instruction _ => []

end Leaf

/-! ## Tags -/

/-- Quoted strings, and bytes that are neither quotes nor `>`. -/
inductive TagContent : List UInt8 → Prop where
  | nil : TagContent []
  | plain {c : UInt8} {rest : List UInt8} : isQuote c = false → c ≠ gt → TagContent rest →
      TagContent (c :: rest)
  | quoted {quote : UInt8} {body rest : List UInt8} : isQuote quote = true → quote ∉ body →
      TagContent rest → TagContent (quote :: (body ++ quote :: rest))

def tagBytes (content : List UInt8) : List UInt8 := lt :: (content ++ [gt])

/-- The content of a tag; `<!` and `<?` begin other markup. -/
structure Tag (content : List UInt8) : Prop where
  balanced : TagContent content
  not_bang : content.head? ≠ some 0x21
  not_question : content.head? ≠ some 0x3f
  nonempty : trimAsciiWhitespace content ≠ []

def startName (content : List UInt8) : List UInt8 :=
  (trimAsciiWhitespace content).takeWhile fun c => !isAsciiWhitespace c

def selfClosingName (content : List UInt8) : List UInt8 :=
  (trimAsciiWhitespace (trimAsciiWhitespace content).dropLast).takeWhile fun c => !isAsciiWhitespace c

def endName (content : List UInt8) : List UInt8 :=
  trimAsciiWhitespace ((trimAsciiWhitespace content).drop 1)

structure StartTag (content : List UInt8) : Prop extends Tag content where
  first : (trimAsciiWhitespace content).head? ≠ some slash
  last : (trimAsciiWhitespace content).getLast? ≠ some slash

structure SelfClosingTag (content : List UInt8) : Prop extends Tag content where
  first : (trimAsciiWhitespace content).head? ≠ some slash
  last : (trimAsciiWhitespace content).getLast? = some slash

structure EndTag (content : List UInt8) : Prop extends Tag content where
  first : (trimAsciiWhitespace content).head? = some slash
  name_nonempty : endName content ≠ []
  name_plain : ∀ c ∈ endName content, isAsciiWhitespace c = false ∧ c ≠ slash

/-! ## Documents -/

/-- The bytes of required tag `index`. -/
def requiredTag (index : TagIndex) : List UInt8 := ascii (kRequiredTags index)

inductive Forest where
  | nil
  | leaf (l : Leaf) (rest : Forest)
  | selfClosing (content : List UInt8) (rest : Forest)
  | element (start : List UInt8) (inner : Forest) (stop : List UInt8) (rest : Forest)

namespace Forest

def bytes : Forest → List UInt8
  | nil => []
  | leaf l rest => l.bytes ++ rest.bytes
  | selfClosing content rest => tagBytes content ++ rest.bytes
  | element start inner stop rest => tagBytes start ++ inner.bytes ++ tagBytes stop ++ rest.bytes

/-- Start and end tags have equal names. -/
def WellFormed : Forest → Prop
  | nil => True
  | leaf l rest => l.Valid ∧ rest.WellFormed
  | selfClosing content rest => SelfClosingTag content ∧ rest.WellFormed
  | element start inner stop rest =>
    StartTag start ∧ EndTag stop ∧ endName stop = startName start ∧ inner.WellFormed ∧ rest.WellFormed

/-- The names of the elements that open, in the order of the document. -/
def openings : Forest → List (List UInt8)
  | nil => []
  | leaf _ rest => rest.openings
  | selfClosing content rest => selfClosingName content :: rest.openings
  | element start inner _ rest => startName start :: (inner.openings ++ rest.openings)

/-- The text runs and CDATA sections outside any element, joined. -/
def text : Forest → List UInt8
  | nil => []
  | leaf l rest => l.content ++ rest.text
  | selfClosing _ rest => rest.text
  | element _ _ _ rest => rest.text

/-- The text of the elements with a name. -/
def textOf (name : List UInt8) : Forest → List UInt8
  | nil => []
  | leaf _ rest => rest.textOf name
  | selfClosing _ rest => rest.textOf name
  | element start inner _ rest =>
    (if startName start = name then inner.text else []) ++ inner.textOf name ++ rest.textOf name

/-- No element opens inside a required one. -/
def FieldsPlain : Forest → Prop
  | nil => True
  | leaf _ rest => rest.FieldsPlain
  | selfClosing _ rest => rest.FieldsPlain
  | element start inner _ rest =>
    ((∃ index, startName start = requiredTag index) → inner.openings = []) ∧ inner.FieldsPlain ∧
      rest.FieldsPlain

/-- The documents that hold a sensor configuration; the first tag, `prodname`, may be absent. -/
structure Accepted (f : Forest) : Prop where
  wellFormed : f.WellFormed
  fieldsPlain : f.FieldsPlain
  once : ∀ index, f.openings.count (requiredTag index) ≤ 1
  present : ∀ index, index ≠ 0 → requiredTag index ∈ f.openings
  sized : ∀ index, requiredTag index ∈ f.openings →
    1 ≤ (trimAsciiWhitespace (f.textOf (requiredTag index))).length ∧
      (trimAsciiWhitespace (f.textOf (requiredTag index))).length ≤ 128

/-- The value of a required field. -/
def field (f : Forest) (index : TagIndex) : List UInt8 :=
  if requiredTag index ∈ f.openings then trimAsciiWhitespace (f.textOf (requiredTag index))
  else ascii "ATI Net F/T"

end Forest

/-! ## Names -/

theorem requiredTag_injective : Function.Injective requiredTag := by
  intro i j h
  revert i j
  decide

theorem requiredTagIndex_eq_some_iff {name : List UInt8} {index : TagIndex} :
    requiredTagIndex name = some index ↔ name = requiredTag index := by
  unfold requiredTagIndex
  constructor
  · intro h
    have hfound := List.find?_some h
    exact of_decide_eq_true hfound
  · rintro rfl
    revert index
    decide

/-- A trimmed value begins and ends with bytes that are no whitespace. -/
theorem trim_head {value : List UInt8} {c : UInt8} (h : (trimAsciiWhitespace value).head? = some c) :
    isAsciiWhitespace c = false := by
  unfold trimAsciiWhitespace at h
  obtain ⟨tail, htail⟩ := List.rdropWhile_prefix isAsciiWhitespace (value.dropWhile isAsciiWhitespace)
  have hhead : (value.dropWhile isAsciiWhitespace).head? = some c := by
    rw [← htail, List.head?_append, h]
    rfl
  have hnot := List.head?_dropWhile_not isAsciiWhitespace value
  rw [hhead] at hnot
  simpa using hnot

/-- A value that begins with such a byte keeps it. -/
theorem trim_cons {c : UInt8} (value : List UInt8) (hc : isAsciiWhitespace c = false) :
    (trimAsciiWhitespace (c :: value)).head? = some c := by
  unfold trimAsciiWhitespace
  rw [List.dropWhile_cons_of_neg (by simp [hc])]
  obtain ⟨tail, htail⟩ := List.rdropWhile_prefix isAsciiWhitespace (c :: value)
  have hne : (c :: value).rdropWhile isAsciiWhitespace ≠ [] := fun hnil => by
    have hall := List.rdropWhile_eq_nil_iff.mp hnil c List.mem_cons_self
    simp [hc] at hall
  cases hvalue : (c :: value).rdropWhile isAsciiWhitespace with
  | nil => exact absurd hvalue hne
  | cons d rest =>
    rw [hvalue, List.cons_append, List.cons.injEq] at htail
    rw [htail.1]
    rfl

/-- The name before the first whitespace begins like the tag. -/
theorem takeWhile_name_head {tag : List UInt8}
    (hhead : ∀ c, tag.head? = some c → isAsciiWhitespace c = false) :
    (tag.takeWhile fun c => !isAsciiWhitespace c).head? = tag.head? := by
  cases tag with
  | nil => rfl
  | cons c tag =>
    rw [List.takeWhile_cons_of_pos (by simp [hhead c rfl])]
    rfl

theorem startName_head (content : List UInt8) :
    (startName content).head? = (trimAsciiWhitespace content).head? :=
  takeWhile_name_head fun _ => trim_head

/-- What is left of a self-closing tag begins like the tag. -/
theorem selfClosingName_head {content : List UInt8}
    (hfirst : (trimAsciiWhitespace content).head? ≠ some slash)
    (hlast : (trimAsciiWhitespace content).getLast? = some slash) :
    (selfClosingName content).head? = (trimAsciiWhitespace content).head? := by
  rw [selfClosingName, takeWhile_name_head fun _ => trim_head]
  have hhead : ∀ c, (trimAsciiWhitespace content).head? = some c → isAsciiWhitespace c = false :=
    fun _ => trim_head
  generalize trimAsciiWhitespace content = tag at hfirst hlast hhead ⊢
  cases tag with
  | nil => cases hlast
  | cons c tag =>
    cases tag with
    | nil => exact absurd hlast hfirst
    | cons d tag =>
      rw [List.dropLast_cons_of_ne_nil (by simp)]
      exact trim_cons _ (hhead c rfl)

/-! ## The end of a tag -/

/-- What may stand before the `>` of a tag, inside a quoted string or outside. -/
def Balanced : Option UInt8 → List UInt8 → Prop
  | none, content => TagContent content
  | some quote, content => ∃ body rest, content = body ++ quote :: rest ∧ quote ∉ body ∧ TagContent rest

theorem balanced_none_cons_iff {c : UInt8} {content : List UInt8} :
    Balanced none (c :: content) ↔
      isQuote c = true ∧ Balanced (some c) content ∨
        isQuote c = false ∧ c ≠ gt ∧ Balanced none content := by
  constructor
  · intro h
    cases h with
    | plain hquote hgt hrest => exact .inr ⟨hquote, hgt, hrest⟩
    | quoted hquote hbody hrest => exact .inl ⟨hquote, _, _, rfl, hbody, hrest⟩
  · rintro (⟨hquote, body, rest, rfl, hbody, hrest⟩ | ⟨hquote, hgt, hrest⟩)
    · exact .quoted hquote hbody hrest
    · exact .plain hquote hgt hrest

theorem balanced_some_cons_iff {quote c : UInt8} {content : List UInt8} :
    Balanced (some quote) (c :: content) ↔
      Balanced (if c = quote then none else some quote) content := by
  constructor
  · rintro ⟨body, rest, heq, hbody, hrest⟩
    cases body with
    | nil =>
      obtain ⟨rfl, rfl⟩ := List.cons.inj heq
      rw [if_pos rfl]
      exact hrest
    | cons d body =>
      obtain ⟨rfl, rfl⟩ := List.cons.inj heq
      rw [if_neg (show ¬ c = quote from fun hc => hbody (hc ▸ List.mem_cons_self))]
      exact ⟨body, rest, rfl, fun hmem => hbody (List.mem_cons_of_mem _ hmem), hrest⟩
  · split_ifs with heq
    · exact fun hrest => ⟨[], content, by rw [heq]; rfl, List.not_mem_nil, hrest⟩
    · rintro ⟨body, rest, rfl, hbody, hrest⟩
      exact ⟨c :: body, rest, rfl, fun hmem => (List.mem_cons.mp hmem).elim (fun hq => heq hq.symm) hbody,
        hrest⟩

/-- **`find_tag_end` finds the first `>` outside quotes.** -/
theorem findTagEnd_eq_some_iff {quote : Option UInt8} {xml content rest : List UInt8} :
    findTagEnd quote xml = some (content, rest) ↔
      xml = content ++ gt :: rest ∧ Balanced quote content := by
  induction xml generalizing quote content with
  | nil =>
    refine ⟨fun h => (by cases h), fun h => ?_⟩
    exact absurd h.1 (by simp)
  | cons c xml ih =>
    have hnext : ∀ {f : List UInt8 × List UInt8 → List UInt8 × List UInt8} quote',
        (∀ found, f found = (c :: found.1, found.2)) →
          ((findTagEnd quote' xml).map f = some (content, rest) ↔
            ∃ content', content = c :: content' ∧ xml = content' ++ gt :: rest ∧
              Balanced quote' content') := by
      intro f quote' hf
      simp only [Option.map_eq_some_iff, hf]
      constructor
      · rintro ⟨⟨content', rest'⟩, hfind, heq⟩
        obtain ⟨rfl, rfl⟩ := Prod.mk.inj heq
        exact ⟨content', rfl, ih.mp hfind⟩
      · rintro ⟨content', rfl, hfind⟩
        exact ⟨(content', rest), ih.mpr hfind, rfl⟩
    -- an empty content is ended by this byte
    have hnil : ∀ {P : Prop}, (c :: xml = content ++ gt :: rest ∧ P) ↔
        (content = [] ∧ c = gt ∧ xml = rest ∧ P) ∨
          ∃ content', content = c :: content' ∧ xml = content' ++ gt :: rest ∧ P := by
      intro P
      cases content with
      | nil => simp [and_assoc]
      | cons d content =>
        simp only [List.cons_append, List.cons.injEq, reduceCtorEq, false_and, false_or]
        grind
    rw [hnil]
    cases quote with
    | some opening =>
      rw [show findTagEnd (some opening) (c :: xml) = _ from rfl, findTagEnd]
      rw [hnext _ fun _ => rfl]
      constructor
      · rintro ⟨content', rfl, hxml, hbalanced⟩
        exact .inr ⟨content', rfl, hxml, balanced_some_cons_iff.mpr hbalanced⟩
      · rintro (⟨rfl, -, -, body, tail, heq, -⟩ | ⟨content', rfl, hxml, hbalanced⟩)
        · exact absurd heq (by simp)
        · exact ⟨content', rfl, hxml, balanced_some_cons_iff.mp hbalanced⟩
    | none =>
      simp only [findTagEnd]
      split_ifs with hquote hgt
      · rw [hnext _ fun _ => rfl]
        constructor
        · rintro ⟨content', rfl, hxml, hbalanced⟩
          exact .inr ⟨content', rfl, hxml, balanced_none_cons_iff.mpr (.inl ⟨hquote, hbalanced⟩)⟩
        · rintro (⟨-, rfl, -⟩ | ⟨content', rfl, hxml, hbalanced⟩)
          · exact absurd hquote (by decide)
          · rcases balanced_none_cons_iff.mp hbalanced with ⟨-, hbalanced⟩ | ⟨hnot, -⟩
            · exact ⟨content', rfl, hxml, hbalanced⟩
            · simp [hquote] at hnot
      · constructor
        · rintro ⟨⟩
          exact .inl ⟨rfl, hgt, rfl, .nil⟩
        · rintro (⟨rfl, -, rfl, -⟩ | ⟨content', rfl, hxml, hbalanced⟩)
          · rfl
          · rcases balanced_none_cons_iff.mp hbalanced with ⟨hyes, -⟩ | ⟨-, hne, -⟩
            · exact absurd hyes hquote
            · exact absurd hgt hne
      · rw [hnext _ fun _ => rfl]
        constructor
        · rintro ⟨content', rfl, hxml, hbalanced⟩
          exact .inr ⟨content', rfl, hxml,
            balanced_none_cons_iff.mpr (.inr ⟨by simpa using hquote, hgt, hbalanced⟩)⟩
        · rintro (⟨-, heq, -⟩ | ⟨content', rfl, hxml, hbalanced⟩)
          · exact absurd heq hgt
          · rcases balanced_none_cons_iff.mp hbalanced with ⟨hyes, -⟩ | ⟨-, -, hbalanced⟩
            · exact absurd hyes hquote
            · exact ⟨content', rfl, hxml, hbalanced⟩

end NetFT.XmlConfig
