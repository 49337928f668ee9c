/-
# NetFT.XmlAccepts — the scanner accepts its grammar.

The scanner is a machine with a stack; a document is a forest.  `Scan.absorb` is what a forest makes of
the state of the scan, and `Scan.Fits` says that no check fails on the way.

* `scan_forest`: the scanner goes through the bytes of a forest that fits.
* `closes_of_scan`: what the scanner accepts closes the open elements one after the other, with a forest
  before each end tag.
* **`extractRequiredFields_iff`**: it accepts the documents of the grammar, with the values of the
  grammar, and no other byte string.
-/
import NetFT.XmlGrammar

namespace NetFT.XmlConfig

set_option autoImplicit false

open Library (Until splitFirst splitFirst_eq_some_iff not_prefix_append)

/-! ## Tags -/

namespace Scan

/-- An element with this name may open. -/
def Opens (s : Scan) (name : List UInt8) : Prop :=
  s.current = none ∧ ∀ index, requiredTagIndex name = some index → s.seen index = false

/-- The element has been seen. -/
def mark (s : Scan) (name : List UInt8) : Scan :=
  match requiredTagIndex name with
  | none => s
  | some index => { s with seen := Function.update s.seen index true }

/-- An element opens. -/
def push (s : Scan) (name : List UInt8) : Scan :=
  { s.mark name with
    elements := { name, requiredIndex := requiredTagIndex name } :: s.elements }

/-- The innermost element closes. -/
def pop (s : Scan) : Scan := { s with elements := s.elements.tail }

variable (s : Scan) (name : List UInt8)

@[simp] theorem mark_elements : (s.mark name).elements = s.elements := by
  unfold mark
  split <;> rfl

@[simp] theorem mark_fields : (s.mark name).fields = s.fields := by
  unfold mark
  split <;> rfl

@[simp] theorem mark_current : (s.mark name).current = s.current := by
  unfold current
  rw [mark_elements]

@[simp] theorem push_current : (s.push name).current = requiredTagIndex name := rfl

@[simp] theorem appendRequiredText_elements (text : List UInt8) :
    (s.appendRequiredText text).elements = s.elements := by
  unfold appendRequiredText
  split <;> rfl

@[simp] theorem appendRequiredText_seen (text : List UInt8) :
    (s.appendRequiredText text).seen = s.seen := by
  unfold appendRequiredText
  split <;> rfl

@[simp] theorem appendRequiredText_current (text : List UInt8) :
    (s.appendRequiredText text).current = s.current := by
  unfold current
  rw [appendRequiredText_elements]

@[simp] theorem appendRequiredText_nil : s.appendRequiredText [] = s := by
  unfold appendRequiredText
  split
  · rfl
  · simp

/-- Text may come in pieces. -/
theorem appendRequiredText_append (text more : List UInt8) :
    s.appendRequiredText (text ++ more) =
      (s.appendRequiredText text).appendRequiredText more := by
  cases hcurrent : s.current with
  | none => simp [appendRequiredText, hcurrent]
  | some index =>
    have hagain := s.appendRequiredText_current text
    rw [hcurrent] at hagain
    rw [appendRequiredText.eq_def (s.appendRequiredText text), hagain]
    simp [appendRequiredText, hcurrent]

end Scan

section

variable {s s' : Scan} {content : List UInt8}

/-- An end tag is accepted exactly if it names the innermost element. -/
theorem scanEndTag_ok_iff (htag : Tag content)
    (hfirst : (trimAsciiWhitespace content).head? = some slash) :
    scanEndTag s (trimAsciiWhitespace content) = .ok s' ↔
      EndTag content ∧ s.elements.head?.map (·.name) = some (endName content) ∧ s' = s.pop := by
  have hany : (endName content).any (fun c => isAsciiWhitespace c || c == slash) = false ↔
      ∀ c ∈ endName content, isAsciiWhitespace c = false ∧ c ≠ slash := by simp
  cases helements : s.elements with
  | nil => simp [scanEndTag, helements]
  | cons element elements =>
    have hpop : s.pop = { s with elements } := by rw [Scan.pop, helements]; rfl
    rw [hpop]
    simp only [scanEndTag, helements, List.head?_cons, Option.map_some, Option.some.injEq]
    change (if endName content = [] ∨
      (endName content).any (fun c => isAsciiWhitespace c || c == slash) = true ∨
        element.name ≠ endName content then _ else _) = _ ↔ _
    split_ifs with hbad
    · refine ⟨fun h => (by cases h), ?_⟩
      rintro ⟨hend, hname, -⟩
      rcases hbad with hnil | hany' | hne
      · exact absurd hnil hend.name_nonempty
      · rw [hany.mpr hend.name_plain] at hany'
        cases hany'
      · exact absurd hname hne
    · obtain ⟨hne, hnot, hname⟩ : endName content ≠ [] ∧
          (endName content).any (fun c => isAsciiWhitespace c || c == slash) = false ∧
            element.name = endName content := by
        simpa only [not_or, Bool.not_eq_true, not_not] using hbad
      rw [Except.ok.injEq, eq_comm]
      exact ⟨fun h => ⟨⟨htag, hfirst, hne, hany.mp hnot⟩, hname, h⟩, fun h => h.2.2⟩

/-- The checks on the name of an element that opens. -/
theorem opened_ok_iff {name : List UInt8} (opened : Scan → Scan) (hname : name ≠ [])
    (hhead : name.head? ≠ some slash) :
    (if name = [] ∨ name.head? = some slash then (.error malformedMarkup : Except String Scan)
      else if s.current.isSome then .error "sensor configuration fields must contain text only"
      else
        match requiredTagIndex name with
        | none => .ok (opened s)
        | some index =>
          if s.seen index then .error (notOnce index)
          else .ok (opened { s with seen := Function.update s.seen index true })) = .ok s' ↔
      s.Opens name ∧ s' = opened (s.mark name) := by
  rw [if_neg (not_or.mpr ⟨hname, hhead⟩)]
  split_ifs with hcurrent
  · refine ⟨fun h => (by cases h), fun h => ?_⟩
    rw [h.1.1] at hcurrent
    cases hcurrent
  · have hnone : s.current = none := by simpa using hcurrent
    cases hindex : requiredTagIndex name with
    | none =>
      have hmark : s.mark name = s := by simp [Scan.mark, hindex]
      rw [hmark, Except.ok.injEq, eq_comm]
      exact ⟨fun h => ⟨⟨hnone, by simp [hindex]⟩, h⟩, And.right⟩
    | some index =>
      have hmark : s.mark name = { s with seen := Function.update s.seen index true } := by
        simp [Scan.mark, hindex]
      rw [hmark]
      dsimp only
      split_ifs with hseen
      · refine ⟨fun h => (by cases h), fun h => ?_⟩
        rw [h.1.2 index hindex] at hseen
        cases hseen
      · rw [Except.ok.injEq, eq_comm]
        refine ⟨fun h => ⟨⟨hnone, fun index' h' => ?_⟩, h⟩, And.right⟩
        obtain rfl := Option.some.inj (hindex.symm.trans h')
        simpa using hseen

/-- A start tag is accepted exactly where its element may open. -/
theorem scanStartTag_ok_iff (htag : Tag content)
    (hfirst : (trimAsciiWhitespace content).head? ≠ some slash)
    (hlast : (trimAsciiWhitespace content).getLast? ≠ some slash) :
    scanStartTag s (trimAsciiWhitespace content) = .ok s' ↔
      s.Opens (startName content) ∧ s' = s.push (startName content) := by
  have hhead := startName_head content
  have hne : startName content ≠ [] := fun hnil => by
    rw [hnil] at hhead
    exact htag.nonempty (List.head?_eq_none_iff.mp hhead.symm)
  simp only [scanStartTag, hlast, decide_false, Bool.false_eq_true, if_false]
  refine (opened_ok_iff (fun s => { s with
    elements := { name := startName content, requiredIndex := requiredTagIndex (startName content) } ::
      s.elements }) hne (hhead ▸ hfirst)).trans ?_
  simp [Scan.push]

/-- So is one that closes itself, which leaves no element open. -/
theorem scanSelfClosingTag_ok_iff (htag : Tag content)
    (hfirst : (trimAsciiWhitespace content).head? ≠ some slash)
    (hlast : (trimAsciiWhitespace content).getLast? = some slash) :
    scanStartTag s (trimAsciiWhitespace content) = .ok s' ↔
      s.Opens (selfClosingName content) ∧ s' = s.mark (selfClosingName content) := by
  have hhead := selfClosingName_head hfirst hlast
  have hne : selfClosingName content ≠ [] := fun hnil => by
    rw [hnil] at hhead
    exact htag.nonempty (List.head?_eq_none_iff.mp hhead.symm)
  simp only [scanStartTag, hlast, decide_true, if_true]
  exact opened_ok_iff id hne (hhead ▸ hfirst)

end

/-! ## Markup -/

/-- What a tag makes of the state. -/
inductive TagStep (s : Scan) (content : List UInt8) : Scan → Prop where
  | start : StartTag content → s.Opens (startName content) → TagStep s content (s.push (startName content))
  | selfClosing : SelfClosingTag content → s.Opens (selfClosingName content) →
      TagStep s content (s.mark (selfClosingName content))
  | stop : EndTag content → s.elements.head?.map (·.name) = some (endName content) →
      TagStep s content s.pop

/-- One piece of markup, and what it makes of the state. -/
inductive Markup (s : Scan) : List UInt8 → Scan → Prop where
  | comment {body : List UInt8} : (Leaf.comment body).Valid → Markup s (Leaf.comment body).bytes s
  | cdata {body : List UInt8} : (Leaf.cdata body).Valid →
      Markup s (Leaf.cdata body).bytes (s.appendRequiredText body)
  | instruction {body : List UInt8} : (Leaf.instruction body).Valid →
      Markup s (Leaf.instruction body).bytes s
  | tag {content : List UInt8} {s' : Scan} : TagStep s content s' → Markup s (tagBytes content) s'

section

variable {s s' : Scan} {xml content rest : List UInt8}

theorem TagStep.tag (h : TagStep s content s') : Tag content := by
  cases h with
  | start htag _ => exact htag.toTag
  | selfClosing htag _ => exact htag.toTag
  | stop htag _ => exact htag.toTag

/-- **A tag is accepted exactly in the three forms of `TagStep`.** -/
theorem scanTag_ok_iff (hbalanced : TagContent content) (hbang : content.head? ≠ some 0x21)
    (hquestion : content.head? ≠ some 0x3f) : scanTag s content = .ok s' ↔ TagStep s content s' := by
  unfold scanTag
  by_cases hempty : trimAsciiWhitespace content = []
  · rw [if_pos hempty]
    exact ⟨fun h => (by cases h), fun h => absurd hempty h.tag.nonempty⟩
  have htag : Tag content := ⟨hbalanced, hbang, hquestion, hempty⟩
  rw [if_neg hempty]
  by_cases hfirst : (trimAsciiWhitespace content).head? = some slash
  · rw [if_pos hfirst, scanEndTag_ok_iff htag hfirst]
    constructor
    · rintro ⟨hend, hname, rfl⟩
      exact .stop hend hname
    · rintro (⟨hstart, -⟩ | ⟨hself, -⟩ | ⟨hend, hname⟩)
      · exact absurd hfirst hstart.first
      · exact absurd hfirst hself.first
      · exact ⟨hend, hname, rfl⟩
  · rw [if_neg hfirst]
    by_cases hlast : (trimAsciiWhitespace content).getLast? = some slash
    · rw [scanSelfClosingTag_ok_iff htag hfirst hlast]
      constructor
      · rintro ⟨hopens, rfl⟩
        exact .selfClosing ⟨htag, hfirst, hlast⟩ hopens
      · rintro (⟨hstart, -⟩ | ⟨-, hopens⟩ | ⟨hend, -⟩)
        · exact absurd hlast hstart.last
        · exact ⟨hopens, rfl⟩
        · exact absurd hend.first hfirst
    · rw [scanStartTag_ok_iff htag hfirst hlast]
      constructor
      · rintro ⟨hopens, rfl⟩
        exact .start ⟨htag, hfirst, hlast⟩ hopens
      · rintro (⟨-, hopens⟩ | ⟨hself, -⟩ | ⟨hend, -⟩)
        · exact ⟨hopens, rfl⟩
        · exact absurd hself.last hlast
        · exact absurd hend.first hfirst

/-- Markup begins with `<`. -/
theorem Markup.head {bytes : List UInt8} (h : Markup s bytes s') : ∃ tail, bytes = lt :: tail := by
  cases h <;> exact ⟨_, rfl⟩

/-- **Markup is accepted exactly in the forms of `Markup`.** -/
theorem scanMarkup_ok_iff :
    scanMarkup s (lt :: xml) = .ok (s', rest) ↔
      ∃ bytes, Markup s bytes s' ∧ lt :: xml = bytes ++ rest := by
  constructor
  · intro h
    simp only [scanMarkup] at h
    split_ifs at h with hcomment hcdata hinstruction hbang
    · obtain ⟨tail, htail⟩ := hcomment
      rw [← htail, List.drop_left' (by decide)] at h
      split at h
      · cases h
      · rename_i body rest' hsplit
        cases h
        obtain ⟨rfl, huntil⟩ := (splitFirst_eq_some_iff (by decide)).mp hsplit
        exact ⟨_, .comment huntil, by rw [← htail]; simp [Leaf.bytes]⟩
    · obtain ⟨tail, htail⟩ := hcdata
      rw [← htail, List.drop_left' (by decide)] at h
      split at h
      · cases h
      · rename_i body rest' hsplit
        cases h
        obtain ⟨rfl, huntil⟩ := (splitFirst_eq_some_iff (by decide)).mp hsplit
        exact ⟨_, .cdata huntil, by rw [← htail]; simp [Leaf.bytes]⟩
    · obtain ⟨tail, htail⟩ := hinstruction
      rw [← htail, List.drop_left' (by decide)] at h
      split at h
      · cases h
      · rename_i body rest' hsplit
        cases h
        obtain ⟨rfl, huntil⟩ := (splitFirst_eq_some_iff (by decide)).mp hsplit
        exact ⟨_, .instruction huntil, by rw [← htail]; simp [Leaf.bytes]⟩
    · split at h
      · cases h
      · rename_i content rest' hfind
        obtain ⟨hxml, hbalanced⟩ := findTagEnd_eq_some_iff.mp hfind
        replace hxml : xml = content ++ gt :: rest' := hxml
        have hhead : ∀ c, content.head? = some c → [lt, c] <+: lt :: xml := by
          intro c hc
          obtain ⟨tail, rfl⟩ : ∃ tail, content = c :: tail := by
            cases content with
            | nil => cases hc
            | cons d tail => exact ⟨tail, by rw [Option.some.inj hc]⟩
          rw [hxml]
          exact ⟨tail ++ gt :: rest', rfl⟩
        cases htag : scanTag s content with
        | error what =>
          rw [htag] at h
          cases h
        | ok s'' =>
          rw [htag] at h
          cases h
          have hstep := (scanTag_ok_iff hbalanced (fun hc => hbang (hhead _ hc))
            fun hc => hinstruction (hhead _ hc)).mp htag
          exact ⟨_, .tag hstep, by rw [hxml]; simp [tagBytes]⟩
  · rintro ⟨bytes, hmarkup, hxml⟩
    rw [hxml]
    cases hmarkup with
    | @comment body hvalid =>
      have hassoc : (Leaf.comment body).bytes ++ rest =
          ascii "<!--" ++ (body ++ ascii "-->" ++ rest) := by simp [Leaf.bytes]
      have hsplit : splitFirst (ascii "-->") (body ++ ascii "-->" ++ rest) = some (body, rest) :=
        (splitFirst_eq_some_iff (by decide)).mpr ⟨rfl, hvalid⟩
      rw [hassoc, scanMarkup, if_pos (List.prefix_append _ _), List.drop_left' (by decide), hsplit]
    | @cdata body hvalid =>
      have hassoc : (Leaf.cdata body).bytes ++ rest =
          ascii "<![CDATA[" ++ (body ++ ascii "]]>" ++ rest) := by simp [Leaf.bytes]
      have hsplit : splitFirst (ascii "]]>") (body ++ ascii "]]>" ++ rest) = some (body, rest) :=
        (splitFirst_eq_some_iff (by decide)).mpr ⟨rfl, hvalid⟩
      have hcomment : ¬ ascii "<!--" <+: ascii "<![CDATA[" ++ (body ++ ascii "]]>" ++ rest) :=
        not_prefix_append (by decide) (by decide)
      rw [hassoc, scanMarkup, if_neg hcomment, if_pos (List.prefix_append _ _),
        List.drop_left' (by decide), hsplit]
    | @instruction body hvalid =>
      have hassoc : (Leaf.instruction body).bytes ++ rest =
          ascii "<?" ++ (body ++ ascii "?>" ++ rest) := by simp [Leaf.bytes]
      have hsplit : splitFirst (ascii "?>") (body ++ ascii "?>" ++ rest) = some (body, rest) :=
        (splitFirst_eq_some_iff (by decide)).mpr ⟨rfl, hvalid⟩
      have hcomment : ¬ ascii "<!--" <+: ascii "<?" ++ (body ++ ascii "?>" ++ rest) :=
        not_prefix_append (by decide) (by decide)
      have hcdata : ¬ ascii "<![CDATA[" <+: ascii "<?" ++ (body ++ ascii "?>" ++ rest) :=
        not_prefix_append (by decide) (by decide)
      rw [hassoc, scanMarkup, if_neg hcomment, if_neg hcdata, if_pos (List.prefix_append _ _),
        List.drop_left' (by decide), hsplit]
    | @tag content _ hstep =>
      have htag := hstep.tag
      have hnot : ∀ c, content.head? ≠ some c → c ≠ gt → ¬ [lt, c] <+: tagBytes content ++ rest := by
        rintro c hhead hgt ⟨tail, htail⟩
        cases content with
        | nil =>
          injection htail with _ htail
          injection htail with hc _
          exact hgt hc
        | cons d content =>
          injection htail with _ htail
          injection htail with hc _
          exact hhead (by rw [hc]; rfl)
      have hbang : ¬ ascii "<!" <+: tagBytes content ++ rest := hnot _ htag.not_bang (by decide)
      have hquestion : ¬ ascii "<?" <+: tagBytes content ++ rest := hnot _ htag.not_question (by decide)
      have hcomment : ¬ ascii "<!--" <+: tagBytes content ++ rest := fun h =>
        hbang ((show ascii "<!" <+: ascii "<!--" by decide).trans h)
      have hcdata : ¬ ascii "<![CDATA[" <+: tagBytes content ++ rest := fun h =>
        hbang ((show ascii "<!" <+: ascii "<![CDATA[" by decide).trans h)
      have hfind : findTagEnd none ((tagBytes content ++ rest).drop 1) = some (content, rest) :=
        findTagEnd_eq_some_iff.mpr ⟨by simp [tagBytes], htag.balanced⟩
      have hscan := (scanTag_ok_iff htag.balanced htag.not_bang htag.not_question).mpr hstep
      rw [scanMarkup, if_neg hcomment, if_neg hcdata, if_neg hquestion, if_neg hbang, hfind]
      dsimp only
      rw [hscan]
      rfl

/-! ## The loop -/

theorem scan_nil : scan s [] = .ok s := by
  rw [scan, dif_pos rfl]

/-- The scan of a page goes step by step. -/
theorem scan_of_ne_nil (hxml : xml ≠ []) :
    scan s xml = (scanStep s xml).bind fun p => scan p.1 p.2 := by
  rw [scan, dif_neg hxml]
  cases scanStep s xml <;> rfl

/-- A text run is read with what follows. -/
theorem scanStep_text {run : List UInt8} (hrun : lt ∉ run) :
    scanStep s (run ++ rest) = scanStep (s.appendRequiredText run) rest := by
  have hall : ∀ c ∈ run, (c != lt) = true := fun c hc => by
    simpa using fun heq : c = lt => hrun (heq ▸ hc)
  unfold scanStep
  rw [List.takeWhile_append_of_pos hall, List.dropWhile_append_of_pos hall, s.appendRequiredText_append]

/-- Text up to the next `<` goes to the innermost element. -/
theorem scan_text {run : List UInt8} (hrun : lt ∉ run) :
    scan s (run ++ rest) = scan (s.appendRequiredText run) rest := by
  cases run with
  | nil => rw [List.nil_append, s.appendRequiredText_nil]
  | cons c run =>
    rw [scan_of_ne_nil (by simp), scanStep_text hrun]
    cases rest with
    | nil => simp [scanStep, scan_nil, Except.bind]
    | cons d rest => rw [scan_of_ne_nil (by simp)]

theorem scanStep_lt : scanStep s (lt :: xml) = scanMarkup s (lt :: xml) := by
  simp [scanStep]

/-- Markup that is accepted is scanned as a whole. -/
theorem scan_markup {bytes : List UInt8} (h : Markup s bytes s') :
    scan s (bytes ++ rest) = scan s' rest := by
  obtain ⟨tail, rfl⟩ := h.head
  have hscan : scanMarkup s (lt :: (tail ++ rest)) = .ok (s', rest) :=
    scanMarkup_ok_iff.mpr ⟨_, h, rfl⟩
  rw [scan_of_ne_nil (by simp), List.cons_append, scanStep_lt, hscan]
  rfl

/-- What the scanner accepts is empty, or begins with a text run or a piece of markup. -/
theorem scan_cases {xml : List UInt8} (h : scan s xml = .ok s') :
    xml = [] ∧ s' = s ∨
      (∃ run rest, run ≠ [] ∧ (Leaf.text run).Valid ∧ xml = run ++ rest ∧
        scan (s.appendRequiredText run) rest = .ok s') ∨
      ∃ bytes rest s₁, bytes ≠ [] ∧ Markup s bytes s₁ ∧ xml = bytes ++ rest ∧ scan s₁ rest = .ok s' := by
  cases xml with
  | nil =>
    rw [scan_nil] at h
    cases h
    exact .inl ⟨rfl, rfl⟩
  | cons c xml =>
    by_cases hc : c = lt
    · subst hc
      rw [scan_of_ne_nil (by simp), scanStep_lt] at h
      cases hscan : scanMarkup s (lt :: xml) with
      | error what =>
        rw [hscan] at h
        cases h
      | ok p =>
        obtain ⟨bytes, hmarkup, hxml⟩ := scanMarkup_ok_iff.mp hscan
        rw [hscan] at h
        refine .inr (.inr ⟨bytes, p.2, p.1, ?_, hmarkup, hxml, h⟩)
        obtain ⟨tail, rfl⟩ := hmarkup.head
        simp
    · -- the run up to the next markup
      refine .inr (.inl ⟨(c :: xml).takeWhile (· != lt), (c :: xml).dropWhile (· != lt), ?_, ?_,
        List.takeWhile_append_dropWhile.symm, ?_⟩)
      · rw [List.takeWhile_cons_of_pos (by simpa using hc)]
        simp
      · intro hmem
        have hne := List.mem_takeWhile_imp hmem
        simp at hne
      · rw [← scan_text, List.takeWhile_append_dropWhile]
        · exact h
        · intro hmem
          have hne := List.mem_takeWhile_imp hmem
          simp at hne

end

/-! ## Forests -/

namespace Forest

/-- What a forest makes of the state of the scan. -/
def absorb : Forest → Scan → Scan
  | nil, s => s
  | leaf l rest, s => rest.absorb (s.appendRequiredText l.content)
  | selfClosing content rest, s => rest.absorb (s.mark (selfClosingName content))
  | element start inner _ rest, s => rest.absorb (inner.absorb (s.push (startName start))).pop

/-- Every element of the forest may open. -/
def Fits : Forest → Scan → Prop
  | nil, _ => True
  | leaf l rest, s => rest.Fits (s.appendRequiredText l.content)
  | selfClosing content rest, s =>
    s.Opens (selfClosingName content) ∧ rest.Fits (s.mark (selfClosingName content))
  | element start inner _ rest, s =>
    s.Opens (startName start) ∧ inner.Fits (s.push (startName start)) ∧
      rest.Fits (inner.absorb (s.push (startName start))).pop

/-- A forest closes what it opens. -/
theorem absorb_elements (f : Forest) (s : Scan) : (f.absorb s).elements = s.elements := by
  induction f generalizing s with
  | nil => rfl
  | leaf l rest ih => rw [absorb, ih, s.appendRequiredText_elements]
  | selfClosing content rest ih => rw [absorb, ih, s.mark_elements]
  | element start inner stop rest ihinner ihrest =>
    rw [absorb, ihrest]
    change (inner.absorb _).elements.tail = _
    rw [ihinner]
    rfl

/-- The end tag takes away what the start tag put. -/
theorem pop_absorb_push_elements (f : Forest) (s : Scan) (name : List UInt8) :
    (f.absorb (s.push name)).pop.elements = s.elements := by
  change (f.absorb _).elements.tail = _
  rw [f.absorb_elements]
  rfl

/-- After an element the text goes where it went before. -/
theorem pop_absorb_push_current (f : Forest) (s : Scan) (name : List UInt8) :
    (f.absorb (s.push name)).pop.current = s.current := by
  unfold Scan.current
  rw [f.pop_absorb_push_elements]

end Forest

/-- A leaf gives its content. -/
theorem scan_leaf {l : Leaf} (h : l.Valid) (s : Scan) (rest : List UInt8) :
    scan s (l.bytes ++ rest) = scan (s.appendRequiredText l.content) rest := by
  cases l with
  | text run => exact scan_text h
  | comment body =>
    rw [show (Leaf.comment body).content = [] from rfl, s.appendRequiredText_nil]
    exact scan_markup (.comment h)
  | cdata body => exact scan_markup (.cdata h)
  | instruction body =>
    rw [show (Leaf.instruction body).content = [] from rfl, s.appendRequiredText_nil]
    exact scan_markup (.instruction h)

/-- **The scanner goes through a forest that fits.** -/
theorem scan_forest {f : Forest} {s : Scan} {rest : List UInt8} (hwell : f.WellFormed) (hfits : f.Fits s) :
    scan s (f.bytes ++ rest) = scan (f.absorb s) rest := by
  induction f generalizing s rest with
  | nil => rfl
  | leaf l forest ih =>
    rw [Forest.bytes, List.append_assoc, scan_leaf hwell.1, ih hwell.2 hfits]
    rfl
  | selfClosing content forest ih =>
    rw [Forest.bytes, List.append_assoc, scan_markup (.tag (.selfClosing hwell.1 hfits.1)),
      ih hwell.2 hfits.2]
    rfl
  | element start inner stop forest ihinner ihrest =>
    obtain ⟨hstart, hstop, hname, hinner, hrest⟩ := hwell
    obtain ⟨hopens, hfitsInner, hfitsRest⟩ := hfits
    have htop : (inner.absorb (s.push (startName start))).elements.head?.map (·.name) =
        some (endName stop) := by
      rw [inner.absorb_elements, hname]
      rfl
    rw [Forest.bytes]
    simp only [List.append_assoc]
    rw [scan_markup (.tag (.start hstart hopens)), ihinner hinner hfitsInner,
      scan_markup (.tag (.stop hstop htop)), ihrest hrest hfitsRest]
    rfl

/-- The input closes the open elements one after the other, with a forest before each end tag and one
after the last. -/
inductive Closes : Scan → List UInt8 → Scan → Prop where
  | done {s : Scan} (f : Forest) : f.WellFormed → f.Fits s → Closes s f.bytes (f.absorb s)
  | close {s s' : Scan} {rest stop : List UInt8} (f : Forest) : f.WellFormed → f.Fits s → EndTag stop →
      s.elements.head?.map (·.name) = some (endName stop) → Closes (f.absorb s).pop rest s' →
      Closes s (f.bytes ++ tagBytes stop ++ rest) s'

namespace Closes

variable {s s' : Scan} {rest : List UInt8}

theorem leaf {l : Leaf} (hvalid : l.Valid) (h : Closes (s.appendRequiredText l.content) rest s') :
    Closes s (l.bytes ++ rest) s' := by
  cases h with
  | done f hwell hfits => exact .done (.leaf l f) ⟨hvalid, hwell⟩ hfits
  | close f hwell hfits hstop htop hrest =>
    rw [s.appendRequiredText_elements] at htop
    simpa [Forest.bytes] using Closes.close (.leaf l f) ⟨hvalid, hwell⟩ hfits hstop htop hrest

theorem selfClosing {content : List UInt8} (htag : SelfClosingTag content)
    (hopens : s.Opens (selfClosingName content))
    (h : Closes (s.mark (selfClosingName content)) rest s') : Closes s (tagBytes content ++ rest) s' := by
  cases h with
  | done f hwell hfits => exact .done (.selfClosing content f) ⟨htag, hwell⟩ ⟨hopens, hfits⟩
  | close f hwell hfits hstop htop hrest =>
    rw [s.mark_elements] at htop
    simpa [Forest.bytes] using
      Closes.close (.selfClosing content f) ⟨htag, hwell⟩ ⟨hopens, hfits⟩ hstop htop hrest

/-- An element that opens is closed by the first end tag left over. -/
theorem start {content : List UInt8} (htag : StartTag content) (hopens : s.Opens (startName content))
    (hdone : s'.elements = []) (h : Closes (s.push (startName content)) rest s') :
    Closes s (tagBytes content ++ rest) s' := by
  cases h with
  | done f hwell hfits =>
    rw [f.absorb_elements] at hdone
    cases hdone
  | close f hwell hfits hstop htop hrest =>
    have hname := (Option.some.inj htop).symm
    cases hrest with
    | done g hwell' hfits' =>
      simpa [Forest.bytes, Forest.absorb] using
        Closes.done (.element content f _ g) ⟨htag, hstop, hname, hwell, hwell'⟩ ⟨hopens, hfits, hfits'⟩
    | close g hwell' hfits' hstop' htop' hrest' =>
      rw [f.pop_absorb_push_elements] at htop'
      simpa [Forest.bytes] using Closes.close (.element content f _ g)
        ⟨htag, hstop, hname, hwell, hwell'⟩ ⟨hopens, hfits, hfits'⟩ hstop' htop' hrest'

end Closes

/-- By induction on the length of the input. -/
theorem closes_of_scan {s s' : Scan} {xml : List UInt8} (hdone : s'.elements = [])
    (h : scan s xml = .ok s') : Closes s xml s' := by
  induction hn : xml.length using Nat.strong_induction_on generalizing s xml with
  | _ n ih =>
    rcases scan_cases h with ⟨rfl, rfl⟩ | ⟨run, rest, hne, hvalid, rfl, hrest⟩ |
      ⟨bytes, rest, s₁, hne, hmarkup, rfl, hrest⟩
    · exact .done .nil trivial trivial
    · have hpos := List.length_pos_of_ne_nil hne
      exact .leaf hvalid (ih _ (by rw [← hn, List.length_append]; omega) hrest rfl)
    · have hpos := List.length_pos_of_ne_nil hne
      have hcloses := ih _ (by rw [← hn, List.length_append]; omega) hrest rfl
      cases hmarkup with
      | comment hvalid =>
        refine .leaf hvalid ?_
        rwa [show (Leaf.comment _).content = [] from rfl, s.appendRequiredText_nil]
      | cdata hvalid => exact .leaf hvalid hcloses
      | instruction hvalid =>
        refine .leaf hvalid ?_
        rwa [show (Leaf.instruction _).content = [] from rfl, s.appendRequiredText_nil]
      | tag hstep =>
        cases hstep with
        | start htag hopens => exact .start htag hopens hdone hcloses
        | selfClosing htag hopens => exact .selfClosing htag hopens hcloses
        | stop hstop htop => exact .close .nil trivial trivial hstop htop hcloses

/-- **What the scanner goes through is a forest that fits.** -/
theorem scan_ok_iff {xml : List UInt8} {s' : Scan} (hdone : s'.elements = []) :
    scan {} xml = .ok s' ↔
      ∃ f : Forest, f.bytes = xml ∧ f.WellFormed ∧ f.Fits {} ∧ s' = f.absorb {} := by
  constructor
  · intro h
    cases closes_of_scan hdone h with
    | done f hwell hfits => exact ⟨f, rfl, hwell, hfits, rfl⟩
    | close f hwell hfits hstop htop hrest => cases htop
  · rintro ⟨f, rfl, hwell, hfits, rfl⟩
    have hscan : scan {} (f.bytes ++ []) = scan (f.absorb {}) [] := scan_forest hwell hfits
    rwa [List.append_nil, scan_nil] at hscan

/-! ## What a forest leaves in the state -/

namespace Scan

variable (s : Scan) (name : List UInt8) (index : TagIndex)

/-- An element that opens has been seen. -/
theorem mark_seen : (s.mark name).seen index = (s.seen index || decide (name = requiredTag index)) := by
  unfold mark
  cases hindex : requiredTagIndex name with
  | none =>
    have hne : name ≠ requiredTag index := fun h => by
      rw [requiredTagIndex_eq_some_iff.mpr h] at hindex
      cases hindex
    simp [hne]
  | some found =>
    have hname := requiredTagIndex_eq_some_iff.mp hindex
    by_cases heq : index = found
    · subst heq
      simp [hname]
    · have hne : name ≠ requiredTag index := fun h =>
        heq (requiredTag_injective (h.symm.trans hname))
      simp [hne, heq]

theorem push_seen : (s.push name).seen index = (s.seen index || decide (name = requiredTag index)) :=
  s.mark_seen name index

/-- Text is added to the field of the innermost element. -/
theorem appendRequiredText_fields (text : List UInt8) :
    (s.appendRequiredText text).fields index =
      s.fields index ++ if s.current = some index then text else [] := by
  unfold appendRequiredText
  cases hcurrent : s.current with
  | none => simp
  | some found =>
    by_cases heq : index = found
    · subst heq
      simp
    · simp [heq, Ne.symm heq]

/-- An element may open outside the required ones, and a required one once. -/
theorem opens_iff : s.Opens name ↔
    s.current = none ∧ ∀ index, name = requiredTag index → s.seen index = false := by
  simp only [Opens, requiredTagIndex_eq_some_iff]

end Scan

namespace Forest

/-- Without elements there is no text of one. -/
theorem textOf_eq_nil {f : Forest} (h : f.openings = []) (name : List UInt8) : f.textOf name = [] := by
  induction f with
  | nil => rfl
  | leaf l rest ih => exact ih h
  | selfClosing content rest ih => cases h
  | element start inner stop rest ihinner ihrest => cases h

/-- A forest shows the elements that it opens. -/
theorem absorb_seen (f : Forest) (s : Scan) (index : TagIndex) :
    (f.absorb s).seen index = (s.seen index || decide (requiredTag index ∈ f.openings)) := by
  induction f generalizing s with
  | nil => simp [absorb, openings]
  | leaf l rest ih => rw [absorb, ih, s.appendRequiredText_seen, openings]
  | selfClosing content rest ih =>
    rw [absorb, ih, s.mark_seen, Bool.or_assoc]
    simp [openings, eq_comm]
  | element start inner stop rest ihinner ihrest =>
    rw [absorb, ihrest]
    change ((inner.absorb _).seen index || _) = _
    rw [ihinner, s.push_seen, Bool.or_assoc, Bool.or_assoc]
    simp [openings, eq_comm]

/-- One more opening of a field, which may have been seen. -/
theorem count_opening_iff (seen : Bool) (p : Prop) [Decidable p] (n : Nat) :
    (p → seen = false) ∧ n + (seen || decide p).toNat ≤ 1 ↔
      n + (if p then 1 else 0) + seen.toNat ≤ 1 := by
  by_cases hp : p
  · cases seen <;> simp [hp]
  · simp [hp]

/-- The opening of an element, `n` openings inside and `m` after it. -/
theorem count_element_iff (seen : Bool) (p : Prop) [Decidable p] (n m : Nat) :
    ((p → seen = false) ∧ n + (seen || decide p).toNat ≤ 1 ∧
        m + (seen || decide p || decide (0 < n)).toNat ≤ 1) ↔
      n + m + (if p then 1 else 0) + seen.toNat ≤ 1 := by
  by_cases hp : p
  · cases seen
    · rcases Nat.eq_zero_or_pos n with rfl | hpos
      · simp [hp]
      · simp [hp, hpos]
    · simp [hp]
  · rcases Nat.eq_zero_or_pos n with rfl | hpos
    · cases seen <;> simp [hp]
    · cases seen
      · simp [hp, hpos]
        omega
      · simp [hp]

/-- **When a forest fits**: no element opens inside a required one, and none opens a second time. -/
theorem fits_iff (f : Forest) (s : Scan) :
    f.Fits s ↔ (s.current ≠ none → f.openings = []) ∧ f.FieldsPlain ∧
      ∀ index, f.openings.count (requiredTag index) + (s.seen index).toNat ≤ 1 := by
  induction f generalizing s with
  | nil =>
    have hseen : ∀ index, (s.seen index).toNat ≤ 1 := fun index => Bool.toNat_le _
    simp [Fits, openings, FieldsPlain, hseen]
  | leaf l rest ih =>
    rw [Fits, ih, s.appendRequiredText_current, s.appendRequiredText_seen]
    rfl
  | selfClosing content rest ih =>
    have hcount : ∀ index, (openings (.selfClosing content rest)).count (requiredTag index) =
        rest.openings.count (requiredTag index) +
          if selfClosingName content = requiredTag index then 1 else 0 := fun index => by
      simp [openings, List.count_cons]
    rw [Fits, ih, s.mark_current, s.opens_iff]
    simp only [hcount, ← count_opening_iff, s.mark_seen]
    constructor
    · rintro ⟨⟨hcurrent, hseen⟩, -, hplain, honce⟩
      exact ⟨fun h => absurd hcurrent h, hplain, fun index => ⟨hseen index, honce index⟩⟩
    · rintro ⟨hcurrent, hplain, honce⟩
      have hnone : s.current = none := by_contra fun h => nomatch hcurrent h
      exact ⟨⟨hnone, fun index => (honce index).1⟩, fun h => absurd hnone h, hplain,
        fun index => (honce index).2⟩
  | element start inner stop rest ihinner ihrest =>
    have hcount : ∀ index, (openings (.element start inner stop rest)).count (requiredTag index) =
        inner.openings.count (requiredTag index) + rest.openings.count (requiredTag index) +
          if startName start = requiredTag index then 1 else 0 := fun index => by
      simp [openings, List.count_cons]
    have hseen : ∀ index, ((inner.absorb (s.push (startName start))).pop.seen index) =
        (s.seen index || decide (startName start = requiredTag index) ||
          decide (0 < inner.openings.count (requiredTag index))) := fun index => by
      change (inner.absorb _).seen index = _
      rw [inner.absorb_seen, s.push_seen]
      simp only [List.count_pos_iff]
    have hrequired : (s.push (startName start)).current ≠ none ↔
        ∃ index, startName start = requiredTag index := by
      rw [s.push_current, Option.ne_none_iff_exists']
      simp only [requiredTagIndex_eq_some_iff]
    rw [Fits, ihinner, ihrest, inner.pop_absorb_push_current, s.opens_iff, hrequired]
    simp only [hcount, ← count_element_iff, s.push_seen, hseen]
    constructor
    · rintro ⟨⟨hcurrent, hstart⟩, ⟨hempty, hplain, hinner⟩, -, hplain', hrest⟩
      exact ⟨fun h => absurd hcurrent h, ⟨hempty, hplain, hplain'⟩,
        fun index => ⟨hstart index, hinner index, hrest index⟩⟩
    · rintro ⟨hcurrent, ⟨hempty, hplain, hplain'⟩, honce⟩
      have hnone : s.current = none := by_contra fun h => nomatch hcurrent h
      exact ⟨⟨hnone, fun index => (honce index).1⟩, ⟨hempty, hplain, fun index => (honce index).2.1⟩,
        fun h => absurd hnone h, hplain', fun index => (honce index).2.2⟩

/-- **The text that a fitting forest adds to a field.** -/
theorem absorb_fields {f : Forest} {s : Scan} (h : f.Fits s) (index : TagIndex) :
    (f.absorb s).fields index =
      s.fields index ++ if s.current = some index then f.text else f.textOf (requiredTag index) := by
  induction f generalizing s with
  | nil => simp [absorb, text, textOf]
  | leaf l rest ih =>
    rw [absorb, ih h, s.appendRequiredText_current, s.appendRequiredText_fields, List.append_assoc]
    split_ifs <;> simp [text, textOf]
  | selfClosing content rest ih =>
    rw [absorb, ih h.2, s.mark_current, s.mark_fields]
    rfl
  | element start inner stop rest ihinner ihrest =>
    obtain ⟨hopens, hinner, hrest⟩ := h
    have hpush : (s.push (startName start)).fields index = s.fields index := by
      change (s.mark _).fields index = _
      rw [s.mark_fields]
    rw [absorb, ihrest hrest, inner.pop_absorb_push_current, hopens.1]
    change (inner.absorb _).fields index ++ _ = _
    rw [ihinner hinner, hpush, s.push_current]
    simp only [requiredTagIndex_eq_some_iff, reduceCtorEq, if_false, textOf, List.append_assoc]
    split_ifs with hname
    · -- a required element has its own text only
      have hempty := ((inner.fits_iff _).mp hinner).1 (by
        rw [s.push_current, requiredTagIndex_eq_some_iff.mpr hname]
        simp)
      rw [inner.textOf_eq_nil hempty, List.nil_append]
    · rfl

end Forest

/-! ## The fields -/

/-- A field has 1 to 128 bytes; only the product name may be missing. -/
theorem Scan.field_ok_iff {s : Scan} {index : TagIndex} {value : List UInt8} :
    s.field index = .ok value ↔
      if s.seen index then
        (1 ≤ (trimAsciiWhitespace (s.fields index)).length ∧
          (trimAsciiWhitespace (s.fields index)).length ≤ 128) ∧
          value = trimAsciiWhitespace (s.fields index)
      else index = 0 ∧ value = ascii "ATI Net F/T" := by
  unfold Scan.field
  cases hseen : s.seen index with
  | false =>
    simp only [if_true, Bool.false_eq_true, if_false]
    split_ifs with hzero
    · rw [Except.ok.injEq, eq_comm]
      exact ⟨fun h => ⟨hzero, h⟩, And.right⟩
    · exact ⟨fun h => (by cases h), fun h => absurd h.1 hzero⟩
  | true =>
    simp only [Bool.true_eq_false, if_false, if_true]
    split_ifs with hempty hlong
    · refine ⟨fun h => (by cases h), fun h => ?_⟩
      rw [hempty] at h
      exact absurd h.1.1 (by decide)
    · exact ⟨fun h => (by cases h), fun h => absurd h.1.2 (Nat.not_le.mpr hlong)⟩
    · rw [Except.ok.injEq, eq_comm]
      exact ⟨fun h => ⟨⟨List.length_pos_of_ne_nil hempty, Nat.not_lt.mp hlong⟩, h⟩, And.right⟩

/-- The end of the page asks for every field. -/
theorem Scan.finish_ok_iff {s : Scan} {fields : RequiredFields} :
    s.finish = .ok fields ↔ s.elements = [] ∧ ∀ index, s.field index = .ok (fields index) := by
  have hbind : ∀ {α β : Type} {x : Except String α} {g : α → Except String β} {y : β},
      x >>= g = .ok y ↔ ∃ a, x = .ok a ∧ g a = .ok y := by
    intro α β x g y
    cases x with
    | error what => exact ⟨fun h => (by cases h), fun ⟨_, h, _⟩ => (by cases h)⟩
    | ok a => exact ⟨fun h => ⟨a, rfl, h⟩, fun ⟨_, h, hg⟩ => (by cases h; exact hg)⟩
  by_cases helements : s.elements = []
  · have hfinish : s.finish = (do
        let prodname ← s.field 0
        let cfgcpf ← s.field 1
        let cfgcpt ← s.field 2
        let scfgfu ← s.field 3
        let scfgtu ← s.field 4
        return ![prodname, cfgcpf, cfgcpt, scfgfu, scfgtu]) := by
      simp [Scan.finish, helements]
    rw [hfinish]
    simp only [hbind]
    constructor
    · rintro ⟨prodname, h0, cfgcpf, h1, cfgcpt, h2, scfgfu, h3, scfgtu, h4, h⟩
      cases h
      exact ⟨helements, fun
        | 0 => h0
        | 1 => h1
        | 2 => h2
        | 3 => h3
        | 4 => h4⟩
    · rintro ⟨-, h⟩
      refine ⟨_, h 0, _, h 1, _, h 2, _, h 3, _, h 4, congrArg Except.ok (funext ?_)⟩
      exact Fin.forall_fin_succ.mpr ⟨rfl, Fin.forall_fin_succ.mpr ⟨rfl, Fin.forall_fin_succ.mpr ⟨rfl,
        Fin.forall_fin_succ.mpr ⟨rfl, Fin.forall_fin_succ.mpr ⟨rfl, fun index => index.elim0⟩⟩⟩⟩⟩
  · refine ⟨fun h => ?_, fun h => absurd h.1 helements⟩
    simp only [Scan.finish, ne_eq, helements, not_false_eq_true, if_true] at h
    cases h

/-- What the last loop finds in the state that a forest leaves. -/
theorem field_absorb_iff {f : Forest} (hfits : f.Fits {}) {index : TagIndex} {value : List UInt8} :
    (f.absorb {}).field index = .ok value ↔
      (requiredTag index ∈ f.openings →
        1 ≤ (trimAsciiWhitespace (f.textOf (requiredTag index))).length ∧
          (trimAsciiWhitespace (f.textOf (requiredTag index))).length ≤ 128) ∧
        (index ≠ 0 → requiredTag index ∈ f.openings) ∧ value = f.field index := by
  have hseen : (f.absorb {}).seen index = decide (requiredTag index ∈ f.openings) := by
    rw [f.absorb_seen]
    rfl
  have hfields : (f.absorb {}).fields index = f.textOf (requiredTag index) := by
    rw [Forest.absorb_fields hfits]
    rfl
  rw [Scan.field_ok_iff, hseen, hfields, Forest.field]
  by_cases hmem : requiredTag index ∈ f.openings
  · simp [hmem]
  · simp only [hmem, decide_false, Bool.false_eq_true, if_false, false_implies, true_and, imp_false, not_not]

/-- **The scanner accepts its grammar.** -/
theorem extractRequiredFields_iff (xml : List UInt8) (fields : RequiredFields) :
    extractRequiredFields xml = .ok fields ↔
      ∃ f : Forest, f.bytes = xml ∧ f.Accepted ∧ fields = f.field := by
  have hfits : ∀ f : Forest, f.Fits {} ↔
      f.FieldsPlain ∧ ∀ index, f.openings.count (requiredTag index) ≤ 1 := fun f => by
    rw [f.fits_iff]
    exact ⟨fun h => h.2, fun h => ⟨fun hcurrent => absurd rfl hcurrent, h⟩⟩
  constructor
  · intro h
    cases hscan : scan {} xml with
    | error what =>
      rw [extractRequiredFields, hscan] at h
      cases h
    | ok s =>
      rw [extractRequiredFields, hscan] at h
      obtain ⟨hdone, hfield⟩ := Scan.finish_ok_iff.mp h
      obtain ⟨f, rfl, hwell, hf, rfl⟩ := (scan_ok_iff hdone).mp hscan
      have hvalue := fun index => (field_absorb_iff hf).mp (hfield index)
      exact ⟨f, rfl, ⟨hwell, ((hfits f).mp hf).1, ((hfits f).mp hf).2, fun index => (hvalue index).2.1,
        fun index => (hvalue index).1⟩, funext fun index => (hvalue index).2.2⟩
  · rintro ⟨f, rfl, haccepted, rfl⟩
    have hf := (hfits f).mpr ⟨haccepted.fieldsPlain, haccepted.once⟩
    have hdone : (f.absorb {}).elements = [] := f.absorb_elements {}
    rw [extractRequiredFields, (scan_ok_iff hdone).mpr ⟨f, rfl, haccepted.wellFormed, hf, rfl⟩]
    exact Scan.finish_ok_iff.mpr ⟨hdone, fun index =>
      (field_absorb_iff hf).mpr ⟨haccepted.sized index, haccepted.present index, rfl⟩⟩

end NetFT.XmlConfig
