/-
# NetFT.Library.Json — JSON texts as bytes.

A text is read in two passes.  `tokenize` splits it into tokens, and a token list is parsed by recursive
descent (`parse`).  Bytes from `0x80` on stand for themselves.

* `StringToken` is the grammar of a string with its value, and `scanString` reads exactly the tokens that
  it derives (**`scanString_eq_some_iff`**), so a token has one value and no token is a prefix of another.
* `Reads text value`: the text denotes the value wherever it stands.  There is a rule for each kind of
  value, and `parse_of_reads` at the end.
-/
import NetFT.Library.Format

namespace NetFT.Library.Json

set_option autoImplicit false

/-! ## The grammar of strings -/

def quote : UInt8 := 0x22
def backslash : UInt8 := 0x5c

/-- What a character of a string stands for. -/
inductive Element where
  | byte (b : UInt8)
  | codeUnit (code : ℕ)
  deriving DecidableEq, Repr

/-- The escapes of one letter. -/
def escaped (letter : UInt8) : Option UInt8 :=
  if letter = 0x22 ∨ letter = 0x5c ∨ letter = 0x2f then some letter
  else if letter = 0x62 then some 0x08
  else if letter = 0x66 then some 0x0c
  else if letter = 0x6e then some 0x0a
  else if letter = 0x72 then some 0x0d
  else if letter = 0x74 then some 0x09
  else none

/-- The value of a hexadecimal digit. -/
def hexValue (b : UInt8) : Option ℕ :=
  if 0x30 ≤ b ∧ b ≤ 0x39 then some (b.toNat - 0x30)
  else if 0x41 ≤ b ∧ b ≤ 0x46 then some (b.toNat - 0x37)
  else if 0x61 ≤ b ∧ b ≤ 0x66 then some (b.toNat - 0x57)
  else none

/-- The number of four such digits. -/
def hexNumber (digits : List UInt8) : Option ℕ :=
  digits.foldlM (fun number digit => (hexValue digit).map (16 * number + ·)) 0

/-- A character of a string: a byte, an escape, or a code unit. -/
inductive Character : List UInt8 → Element → Prop where
  | plain {b : UInt8} : 0x20 ≤ b → b ≠ quote → b ≠ backslash → Character [b] (.byte b)
  | escape {letter b : UInt8} : escaped letter = some b → Character [backslash, letter] (.byte b)
  | unicode {d₁ d₂ d₃ d₄ : UInt8} {code : ℕ} : hexNumber [d₁, d₂, d₃, d₄] = some code →
      Character [backslash, 0x75, d₁, d₂, d₃, d₄] (.codeUnit code)

def isHighSurrogate (code : ℕ) : Bool := 0xd800 ≤ code && code < 0xdc00
def isLowSurrogate (code : ℕ) : Bool := 0xdc00 ≤ code && code < 0xe000

/-- The bytes of the elements: code units are UTF-16, and a lone surrogate stands for nothing. -/
def assemble : List Element → Option (List UInt8)
  | [] => some []
  | .byte b :: elements => (assemble elements).map (b :: ·)
  | .codeUnit code :: elements =>
    if isHighSurrogate code then
      match elements with
      | .codeUnit low :: elements =>
        if isLowSurrogate low then
          let scalar := 0x10000 + (code - 0xd800) * 0x400 + (low - 0xdc00)
          (assemble elements).map (String.utf8EncodeChar (Char.ofNat scalar) ++ ·)
        else none
      | _ => none
    else if isLowSurrogate code then none
    else (assemble elements).map (String.utf8EncodeChar (Char.ofNat code) ++ ·)

/-- A code unit that is no surrogate. -/
theorem assemble_codeUnit {code : ℕ} (hhigh : isHighSurrogate code = false)
    (hlow : isLowSurrogate code = false) (elements : List Element) :
    assemble (.codeUnit code :: elements) =
      (assemble elements).map (String.utf8EncodeChar (Char.ofNat code) ++ ·) := by
  rw [assemble.eq_def]
  simp only [hhigh, hlow, Bool.false_eq_true, if_false]

/-- **A string token**: characters between two quotes. -/
inductive StringToken : List UInt8 → List UInt8 → Prop where
  | mk {parts : List (List UInt8)} {elements : List Element} {value : List UInt8} :
      List.Forall₂ Character parts elements → assemble elements = some value →
      StringToken (quote :: (parts.flatten ++ [quote])) value

/-! ## The scanner -/

/-- The characters up to the closing quote, and what follows it. -/
def scanBody : List UInt8 → Option (List Element × List UInt8)
  | [] => none
  | b :: text =>
    if b = quote then some ([], text)
    else if b = backslash then
      match text with
      | [] => none
      | letter :: text =>
        if letter = 0x75 then
          match text with
          | d₁ :: d₂ :: d₃ :: d₄ :: text =>
            (hexNumber [d₁, d₂, d₃, d₄]).bind fun code =>
              (scanBody text).map (Prod.map (.codeUnit code :: ·) id)
          | _ => none
        else
          (escaped letter).bind fun b =>
            (scanBody text).map (Prod.map (.byte b :: ·) id)
    else if b < 0x20 then none
    else (scanBody text).map (Prod.map (.byte b :: ·) id)

/-- The value of the string at the front of the text, and what follows it. -/
def scanString : List UInt8 → Option (List UInt8 × List UInt8)
  | [] => none
  | b :: text =>
    if b = quote then
      (scanBody text).bind fun (elements, rest) => (assemble elements).map (·, rest)
    else none

theorem scanBody_quote (rest : List UInt8) : scanBody (quote :: rest) = some ([], rest) := by
  rw [scanBody.eq_def]
  simp only [if_true]

/-- One character of the grammar is one round of the scanner. -/
theorem scanBody_character {part : List UInt8} {element : Element} (h : Character part element)
    (text : List UInt8) :
    scanBody (part ++ text) = (scanBody text).map (Prod.map (element :: ·) id) := by
  cases h with
  | plain hle hquote hbackslash =>
    rw [List.singleton_append, scanBody.eq_def]
    simp only [if_neg hquote, if_neg hbackslash, if_neg (UInt8.not_lt.mpr hle)]
  | escape hescaped =>
    have hne : ¬ backslash = quote := by decide
    rename_i letter b
    have hletter : letter ≠ 0x75 := by
      rintro rfl
      simp [escaped] at hescaped
    rw [List.cons_append, List.singleton_append, scanBody.eq_def]
    simp only [if_neg hne, if_true, if_neg hletter, hescaped, Option.bind_some]
  | unicode hcode =>
    have hne : ¬ backslash = quote := by decide
    simp only [List.cons_append, List.nil_append]
    rw [scanBody.eq_def]
    simp only [if_neg hne, if_true, hcode, Option.bind_some]

/-- Characters up to a quote are scanned. -/
theorem scanBody_of_characters {parts : List (List UInt8)} {elements : List Element}
    (h : List.Forall₂ Character parts elements) (rest : List UInt8) :
    scanBody (parts.flatten ++ quote :: rest) = some (elements, rest) := by
  induction h with
  | nil => exact scanBody_quote rest
  | cons hcharacter _ ih =>
    rw [List.flatten_cons, List.append_assoc, scanBody_character hcharacter, ih]
    rfl

/-- What the scanner reads, the grammar derives. -/
theorem characters_of_scanBody {text rest : List UInt8} {elements : List Element}
    (h : scanBody text = some (elements, rest)) :
    ∃ parts, List.Forall₂ Character parts elements ∧ text = parts.flatten ++ quote :: rest := by
  fun_induction scanBody text generalizing elements with
  | case1 => cases h
  | case2 text =>
    cases h
    exact ⟨[], .nil, rfl⟩
  | case3 => cases h
  | case4 _ d₁ d₂ d₃ d₄ text ih =>
    obtain ⟨code, hcode, h⟩ := Option.bind_eq_some_iff.mp h
    obtain ⟨⟨elements', rest'⟩, hscanned, heq⟩ := Option.map_eq_some_iff.mp h
    cases heq
    obtain ⟨parts, hparts, rfl⟩ := ih hscanned
    exact ⟨_ :: parts, .cons (.unicode hcode) hparts, rfl⟩
  | case5 => cases h
  | case6 letter text _ _ ih =>
    obtain ⟨b, hescaped, h⟩ := Option.bind_eq_some_iff.mp h
    obtain ⟨⟨elements', rest'⟩, hscanned, heq⟩ := Option.map_eq_some_iff.mp h
    cases heq
    obtain ⟨parts, hparts, rfl⟩ := ih hscanned
    exact ⟨_ :: parts, .cons (.escape hescaped) hparts, rfl⟩
  | case7 => cases h
  | case8 b text hquote hbackslash hle ih =>
    obtain ⟨⟨elements', rest'⟩, hscanned, heq⟩ := Option.map_eq_some_iff.mp h
    cases heq
    obtain ⟨parts, hparts, rfl⟩ := ih hscanned
    exact ⟨_ :: parts, .cons (.plain (UInt8.not_lt.mp hle) hquote hbackslash) hparts, rfl⟩

/-- **The scanner reads exactly the tokens of the grammar.** -/
theorem scanString_eq_some_iff {text value rest : List UInt8} :
    scanString text = some (value, rest) ↔ ∃ token, StringToken token value ∧ text = token ++ rest := by
  constructor
  · intro h
    unfold scanString at h
    split at h
    · cases h
    rename_i b text
    split_ifs at h with hquote
    obtain ⟨⟨elements, rest'⟩, hscanned, h⟩ := Option.bind_eq_some_iff.mp h
    obtain ⟨value', hvalue, heq⟩ := Option.map_eq_some_iff.mp h
    cases heq
    obtain ⟨parts, hparts, rfl⟩ := characters_of_scanBody hscanned
    refine ⟨_, ⟨hparts, hvalue⟩, ?_⟩
    rw [hquote, List.cons_append, List.append_assoc, List.singleton_append]
  · rintro ⟨token, ⟨hparts, hvalue⟩, rfl⟩
    rw [List.cons_append, List.append_assoc, List.singleton_append, scanString, if_pos rfl,
      scanBody_of_characters hparts, Option.bind_some]
    simp only [hvalue, Option.map_some]

/-- A string token is scanned as a whole. -/
theorem StringToken.scanned {token value : List UInt8} (h : StringToken token value)
    (rest : List UInt8) : scanString (token ++ rest) = some (value, rest) :=
  scanString_eq_some_iff.mpr ⟨token, h, rfl⟩

/-- Nothing but the token itself is a token at the front of it. -/
theorem StringToken.unique {token token' value value' rest rest' : List UInt8}
    (h : StringToken token value) (h' : StringToken token' value')
    (heq : token ++ rest = token' ++ rest') : token = token' ∧ value = value' := by
  have hscanned := h.scanned rest
  rw [heq, h'.scanned rest'] at hscanned
  cases hscanned
  exact ⟨List.append_cancel_right heq, rfl⟩

/-- A run of bytes stops where the predicate does. -/
theorem takeWhile_dropWhile_append {p : UInt8 → Bool} {run rest : List UInt8} (hrun : run.all p = true)
    (hrest : ∀ b ∈ rest.head?, p b = false) :
    (run ++ rest).takeWhile p = run ∧ (run ++ rest).dropWhile p = rest := by
  have hmem : ∀ b ∈ run, p b = true := List.all_eq_true.mp hrun
  rw [List.takeWhile_append_of_pos hmem, List.dropWhile_append_of_pos hmem]
  cases rest with
  | nil => simp
  | cons b rest => simp [hrest b rfl]

/-! ## Numbers -/

def isDigit (b : UInt8) : Bool := 0x30 ≤ b && b ≤ 0x39

/-- At least one digit. -/
def isDigits (text : List UInt8) : Bool := text ≠ [] && text.all isDigit

/-- Nothing, or an exponent. -/
def isExponent : List UInt8 → Bool
  | [] => true
  | e :: text =>
    (e = 0x65 || e = 0x45) &&
      match text with
      | sign :: digits => if sign = 0x2b ∨ sign = 0x2d then isDigits digits else isDigits text
      | [] => false

/-- Nothing or a fraction, and what may follow it. -/
def isFraction : List UInt8 → Bool
  | [] => true
  | point :: text =>
    if point = 0x2e then isDigits (text.takeWhile isDigit) && isExponent (text.dropWhile isDigit)
    else isExponent (point :: text)

/-- The whole part, without a leading zero, and what may follow it. -/
def isUnsigned (text : List UInt8) : Bool :=
  let whole := text.takeWhile isDigit
  (whole = [0x30] || (whole ≠ [] && whole.head? ≠ some 0x30)) && isFraction (text.dropWhile isDigit)

/-- A number, perhaps with a minus sign. -/
def isNumber : List UInt8 → Bool
  | [] => false
  | sign :: text => if sign = 0x2d then isUnsigned text else isUnsigned (sign :: text)

/-- The parts of a number. -/
theorem isNumber_of_parts (negative : Bool) {whole fraction exponent : List UInt8}
    (hwhole : whole = [0x30] ∨ isDigits whole = true ∧ whole.head? ≠ some 0x30)
    (hfraction : fraction = [] ∨ ∃ digits, fraction = 0x2e :: digits ∧ isDigits digits = true)
    (hexponent : exponent = [] ∨ ∃ sign digits, exponent = 0x65 :: sign :: digits ∧
      (sign = 0x2d ∨ sign = 0x2b) ∧ isDigits digits = true) :
    isNumber ((if negative then [0x2d] else []) ++ (whole ++ (fraction ++ exponent))) = true := by
  have hexponent' : isExponent exponent = true := by
    rcases hexponent with rfl | ⟨sign, digits, rfl, hsign, hdigits⟩
    · rfl
    · simp [isExponent, hsign.symm, hdigits]
  have hhead : ∀ b ∈ exponent.head?, isDigit b = false := by
    rcases hexponent with rfl | ⟨sign, digits, rfl, -⟩
    · simp
    · simp [isDigit]
  have hfraction' : isFraction (fraction ++ exponent) = true := by
    rcases hfraction with rfl | ⟨digits, rfl, hdigits⟩
    · rcases hexponent with rfl | ⟨sign, digits, rfl, -⟩
      · rfl
      · rw [List.nil_append, isFraction, if_neg (by decide)]
        exact hexponent'
    · have hall : digits.all isDigit = true := by
        rw [isDigits, Bool.and_eq_true] at hdigits
        exact hdigits.2
      obtain ⟨htake, hdrop⟩ := takeWhile_dropWhile_append hall hhead
      rw [List.cons_append, isFraction, if_pos rfl, htake, hdrop, hdigits, hexponent']
      rfl
  have hhead' : ∀ b ∈ (fraction ++ exponent).head?, isDigit b = false := by
    rcases hfraction with rfl | ⟨digits, rfl, -⟩
    · exact hhead
    · simp [isDigit]
  have hall : whole.all isDigit = true ∧ whole ≠ [] := by
    rcases hwhole with rfl | ⟨hdigits, -⟩
    · simp [isDigit]
    · rw [isDigits, Bool.and_eq_true, decide_eq_true_eq] at hdigits
      exact hdigits.symm
  have hunsigned : isUnsigned (whole ++ (fraction ++ exponent)) = true := by
    obtain ⟨htake, hdrop⟩ := takeWhile_dropWhile_append hall.1 hhead'
    simp only [isUnsigned, htake, hdrop, hfraction', Bool.and_true]
    rcases hwhole with rfl | ⟨-, hzero⟩
    · rfl
    · simp [hall.2, hzero]
  cases negative with
  | true => exact hunsigned
  | false =>
    obtain ⟨d, whole, rfl⟩ := List.exists_cons_of_ne_nil hall.2
    have hd : isDigit d = true := by
      have h := hall.1
      rw [List.all_cons, Bool.and_eq_true] at h
      exact h.1
    have hne : d ≠ 0x2d := by
      rintro rfl
      cases hd
    rw [if_neg Bool.false_ne_true, List.nil_append, List.cons_append, isNumber, if_neg hne]
    exact hunsigned

section

variable {p : UInt8 → Bool} (hdigit : ∀ b, isDigit b = true → p b = true)
  (hother : ∀ b ∈ ([0x2b, 0x2d, 0x2e, 0x45, 0x65] : List UInt8), p b = true)

include hdigit

/-- The digits of a number can stand in a literal. -/
theorem isDigits_all {text : List UInt8} (h : isDigits text = true) : text.all p = true := by
  rw [isDigits, Bool.and_eq_true] at h
  exact List.all_eq_true.mpr fun b hb => hdigit b (List.all_eq_true.mp h.2 b hb)

/-- A text that begins with digits. -/
theorem all_of_dropWhile {text : List UInt8} (h : (text.dropWhile isDigit).all p = true) :
    text.all p = true := by
  rw [← List.takeWhile_append_dropWhile (p := isDigit) (l := text), List.all_append, h, Bool.and_true]
  exact List.all_eq_true.mpr fun b hb => hdigit b (List.all_eq_true.mp List.all_takeWhile b hb)

include hother

theorem isExponent_all {text : List UInt8} (h : isExponent text = true) : text.all p = true := by
  unfold isExponent at h
  split at h
  · rfl
  rename_i e text
  rw [Bool.and_eq_true, Bool.or_eq_true, decide_eq_true_eq, decide_eq_true_eq] at h
  have he : p e = true := by
    rcases h.1 with rfl | rfl <;> exact hother _ (by decide)
  rw [List.all_cons, he, Bool.true_and]
  replace h := h.2
  split at h
  · rename_i sign digits
    split_ifs at h with hsign
    · have hp : p sign = true := by
        rcases hsign with rfl | rfl <;> exact hother _ (by decide)
      rw [List.all_cons, hp, Bool.true_and]
      exact isDigits_all hdigit h
    · exact isDigits_all hdigit h
  · cases h

theorem isFraction_all {text : List UInt8} (h : isFraction text = true) : text.all p = true := by
  unfold isFraction at h
  split at h
  · rfl
  split_ifs at h with hpoint
  · rw [Bool.and_eq_true] at h
    rw [List.all_cons, hpoint, hother _ (by decide), Bool.true_and]
    exact all_of_dropWhile hdigit (isExponent_all hdigit hother h.2)
  · exact isExponent_all hdigit hother h

/-- The bytes of a number. -/
theorem isNumber_all {text : List UInt8} (h : isNumber text = true) : text.all p = true := by
  have hunsigned : ∀ {text}, isUnsigned text = true → text.all p = true := by
    intro text h
    rw [isUnsigned, Bool.and_eq_true] at h
    exact all_of_dropWhile hdigit (isFraction_all hdigit hother h.2)
  unfold isNumber at h
  split at h
  · cases h
  split_ifs at h with hsign
  · rw [List.all_cons, hsign, hother _ (by decide), Bool.true_and]
    exact hunsigned h
  · exact hunsigned h

end

/-! ## Tokens -/

/-- The tokens. -/
inductive Token where
  | openBrace | closeBrace | openBracket | closeBracket | colon | comma
  | null
  | bool (b : Bool)
  | number (text : List UInt8)
  | string (value : List UInt8)
  deriving DecidableEq, Repr

def isSpace (b : UInt8) : Bool := b = 0x20 || b = 0x09 || b = 0x0a || b = 0x0d

/-- The six structural characters. -/
def punctuation (b : UInt8) : Option Token :=
  if b = 0x7b then some .openBrace
  else if b = 0x7d then some .closeBrace
  else if b = 0x5b then some .openBracket
  else if b = 0x5d then some .closeBracket
  else if b = 0x3a then some .colon
  else if b = 0x2c then some .comma
  else none

/-- The bytes of a number or a name. -/
def isLiteral (b : UInt8) : Bool := !isSpace b && punctuation b = none && b ≠ quote

/-- A digit can stand in a literal. -/
theorem isLiteral_of_isDigit (b : UInt8) (h : isDigit b = true) : isLiteral b = true := by
  rw [isDigit, Bool.and_eq_true, decide_eq_true_eq, decide_eq_true_eq] at h
  have hne : ∀ {c : UInt8}, c < 0x30 ∨ 0x39 < c → b ≠ c := by
    rintro c hc rfl
    rcases hc with hc | hc
    · exact absurd h.1 (UInt8.not_le.mpr hc)
    · exact absurd h.2 (UInt8.not_le.mpr hc)
  simp [isLiteral, isSpace, punctuation, quote, hne]

/-- The token of a literal: a word or a number. -/
def literal (text : List UInt8) : Option Token :=
  if text = [0x6e, 0x75, 0x6c, 0x6c] then some .null
  else if text = [0x74, 0x72, 0x75, 0x65] then some (.bool true)
  else if text = [0x66, 0x61, 0x6c, 0x73, 0x65] then some (.bool false)
  else if isNumber text then some (.number text)
  else none

/-- A string takes at least its quotes. -/
theorem scanString_length {text value rest : List UInt8} (h : scanString text = some (value, rest)) :
    rest.length < text.length := by
  obtain ⟨token, ⟨-, -⟩, rfl⟩ := scanString_eq_some_iff.mp h
  rw [List.length_append]
  exact Nat.lt_add_of_pos_left (by simp)

/-- The tokens of a text. -/
def tokenize (text : List UInt8) : Option (List Token) :=
  match text with
  | [] => some []
  | b :: rest =>
    if isSpace b then tokenize rest
    else
      match punctuation b with
      | some token => (tokenize rest).map (token :: ·)
      | none =>
        if b = quote then
          match _ : scanString (b :: rest) with
          | some (value, rest') => (tokenize rest').map (.string value :: ·)
          | none => none
        else
          (literal (b :: rest.takeWhile isLiteral)).bind fun token =>
            (tokenize (rest.dropWhile isLiteral)).map (token :: ·)
termination_by text.length
decreasing_by
  · simp
  · simp
  · exact scanString_length ‹_›
  · exact Nat.lt_succ_of_le (List.dropWhile_sublist _).length_le

/-- What follows a number or a name does not continue it. -/
def Delimited (text : List UInt8) : Prop := ∀ b ∈ text.head?, isLiteral b = false

/-- The text contributes the tokens. -/
def Lexes (text : List UInt8) (tokens : List Token) : Prop :=
  ∀ rest, Delimited rest → tokenize (text ++ rest) = (tokenize rest).map (tokens ++ ·)

section

variable {b : UInt8} {text text' value : List UInt8} {token : Token} {tokens tokens' : List Token}

theorem delimited_nil : Delimited [] := by simp [Delimited]

theorem delimited_cons : Delimited (b :: text) ↔ isLiteral b = false := by simp [Delimited]

theorem Delimited.append (h : Delimited text) (h' : Delimited text') : Delimited (text ++ text') := by
  cases text with
  | nil => exact h'
  | cons b text => exact delimited_cons.mpr (delimited_cons.mp h)

theorem Lexes.nil : Lexes [] [] := by
  intro rest _
  simp

/-- Texts can be joined where the second does not go on with a literal. -/
theorem Lexes.append (h : Lexes text tokens) (h' : Lexes text' tokens') (hdelimited : Delimited text') :
    Lexes (text ++ text') (tokens ++ tokens') := by
  intro rest hrest
  rw [List.append_assoc, h _ (hdelimited.append hrest), h' rest hrest, Option.map_map]
  congr 1
  funext ts
  exact (List.append_assoc tokens tokens' ts).symm

theorem Lexes.space (hspace : isSpace b = true) (h : Lexes text tokens) : Lexes (b :: text) tokens := by
  intro rest hrest
  rw [List.cons_append, tokenize, if_pos hspace, h rest hrest]

/-- Blanks may stand before a token. -/
theorem Lexes.spaces (hspaces : text.all isSpace = true) (h : Lexes text' tokens) :
    Lexes (text ++ text') tokens := by
  induction text with
  | nil => exact h
  | cons b text ih =>
    rw [List.all_cons, Bool.and_eq_true] at hspaces
    exact (ih hspaces.2).space hspaces.1

/-- A structural character is a token. -/
theorem Lexes.punctuation (hb : punctuation b = some token) (h : Lexes text tokens) :
    Lexes (b :: text) (token :: tokens) := by
  intro rest hrest
  have hspace : isSpace b = false := by
    by_contra hspace
    simp only [isSpace, Bool.not_eq_false, Bool.or_eq_true, decide_eq_true_eq] at hspace
    rcases hspace with ((rfl | rfl) | rfl) | rfl <;> cases hb
  rw [List.cons_append, tokenize, if_neg (by simp [hspace])]
  simp only [hb, h rest hrest, Option.map_map]
  rfl

/-- So is a string. -/
theorem Lexes.string {part : List UInt8} (hpart : StringToken part value) (h : Lexes text tokens) :
    Lexes (part ++ text) (.string value :: tokens) := by
  intro rest hrest
  have hscanned := hpart.scanned (text ++ rest)
  obtain ⟨hparts, hvalue⟩ := hpart
  rw [List.append_assoc]
  rw [List.cons_append] at hscanned ⊢
  rw [tokenize, if_neg (by decide)]
  have hnone : Json.punctuation quote = none := by decide
  simp only [hnone, if_true]
  split
  · rename_i value' rest' heq
    rw [hscanned] at heq
    cases heq
    rw [h rest hrest, Option.map_map]
    rfl
  · rename_i heq
    rw [hscanned] at heq
    cases heq

/-- A number or a name, up to what does not continue it. -/
theorem Lexes.literal {part : List UInt8} (hpart : part.all isLiteral = true)
    (hliteral : Json.literal part = some token) (h : Lexes text tokens) (hdelimited : Delimited text) :
    Lexes (part ++ text) (token :: tokens) := by
  intro rest hrest
  have hdelimited' := hdelimited.append hrest
  cases part with
  | nil => cases hliteral
  | cons b part =>
    rw [List.all_cons, Bool.and_eq_true] at hpart
    obtain ⟨hb, hpart⟩ := hpart
    obtain ⟨htake, hdrop⟩ := takeWhile_dropWhile_append hpart hdelimited'
    simp only [isLiteral, Bool.and_eq_true, Bool.not_eq_true', decide_eq_true_eq] at hb
    rw [List.append_assoc, List.cons_append, tokenize, if_neg (by simp [hb.1.1])]
    simp only [hb.1.2, if_neg hb.2, htake, hdrop, hliteral, Option.bind_some, h rest hrest,
      Option.map_map]
    rfl

end

/-! ## Values -/

/-- The values. -/
inductive Value where
  | null
  | bool (b : Bool)
  | number (text : List UInt8)
  | string (value : List UInt8)
  | array (values : List Value)
  | object (members : List (List UInt8 × Value))

mutual

/-- The value at the head of the tokens; the fuel bounds the nesting and the length. -/
def parseValue : ℕ → List Token → Option (Value × List Token)
  | 0, _ => none
  | _ + 1, .null :: tokens => some (.null, tokens)
  | _ + 1, .bool b :: tokens => some (.bool b, tokens)
  | _ + 1, .number text :: tokens => some (.number text, tokens)
  | _ + 1, .string value :: tokens => some (.string value, tokens)
  | _ + 1, .openBracket :: .closeBracket :: tokens => some (.array [], tokens)
  | fuel + 1, .openBracket :: tokens => (parseElements fuel tokens).map (Prod.map .array id)
  | _ + 1, .openBrace :: .closeBrace :: tokens => some (.object [], tokens)
  | fuel + 1, .openBrace :: tokens => (parseMembers fuel tokens).map (Prod.map .object id)
  | _ + 1, _ => none

/-- Values with commas between them, and a bracket after the last one. -/
def parseElements : ℕ → List Token → Option (List Value × List Token)
  | 0, _ => none
  | fuel + 1, tokens =>
    match parseValue fuel tokens with
    | some (value, .comma :: tokens) => (parseElements fuel tokens).map (Prod.map (value :: ·) id)
    | some (value, .closeBracket :: tokens) => some ([value], tokens)
    | _ => none

/-- Named values with commas between them, and a brace after the last one. -/
def parseMembers : ℕ → List Token → Option (List (List UInt8 × Value) × List Token)
  | fuel + 1, .string name :: .colon :: tokens =>
    match parseValue fuel tokens with
    | some (value, .comma :: tokens) =>
      (parseMembers fuel tokens).map (Prod.map ((name, value) :: ·) id)
    | some (value, .closeBrace :: tokens) => some ([(name, value)], tokens)
    | _ => none
  | _, _ => none

end

/-- The value of a text. -/
def parse (text : List UInt8) : Option Value :=
  (tokenize text).bind fun tokens =>
    match parseValue tokens.length tokens with
    | some (value, []) => some value
    | _ => none

/-- The tokens are those of the value. -/
def Parses (value : Value) (tokens : List Token) : Prop :=
  ∀ fuel rest, tokens.length ≤ fuel → parseValue fuel (tokens ++ rest) = some (value, rest)

/-- The elements of an array, with commas between them. -/
theorem parseElements_of_parses {values : List Value} {parts : List (List Token)}
    (h : List.Forall₂ Parses values parts) (hne : values ≠ []) {fuel : ℕ}
    (hfuel : ([Token.comma].intercalate parts).length < fuel) (rest : List Token) :
    parseElements fuel ([Token.comma].intercalate parts ++ .closeBracket :: rest) =
      some (values, rest) := by
  induction h generalizing fuel with
  | nil => exact absurd rfl hne
  | @cons value part values parts hpart hparts ih =>
    obtain ⟨fuel, rfl⟩ : ∃ n, fuel = n + 1 := ⟨fuel - 1, by omega⟩
    cases hparts with
    | nil =>
      simp only [List.intercalate_singleton] at hfuel ⊢
      rw [parseElements, hpart fuel _ (by omega)]
    | cons hpart' hparts' =>
      simp only [List.intercalate_cons_cons, List.append_assoc, List.cons_append, List.nil_append,
        List.length_append, List.length_cons] at hfuel ⊢
      rw [parseElements, hpart fuel _ (by omega)]
      simp only
      rw [ih (by simp) (by omega)]
      rfl

/-- The members of an object. -/
theorem parseMembers_of_parses {members : List (List UInt8 × Value)} {parts : List (List Token)}
    (h : List.Forall₂ (fun member part => ∃ tokens, part = .string member.1 :: .colon :: tokens ∧
      Parses member.2 tokens) members parts) (hne : members ≠ []) {fuel : ℕ}
    (hfuel : ([Token.comma].intercalate parts).length < fuel) (rest : List Token) :
    parseMembers fuel ([Token.comma].intercalate parts ++ .closeBrace :: rest) =
      some (members, rest) := by
  induction h generalizing fuel with
  | nil => exact absurd rfl hne
  | @cons member part members parts hpart hparts ih =>
    obtain ⟨fuel, rfl⟩ : ∃ n, fuel = n + 1 := ⟨fuel - 1, by omega⟩
    obtain ⟨tokens, rfl, hpart⟩ := hpart
    cases hparts with
    | nil =>
      simp only [List.intercalate_singleton, List.cons_append, List.length_cons] at hfuel ⊢
      rw [parseMembers, hpart fuel _ (by omega)]
    | cons hpart' hparts' =>
      simp only [List.intercalate_cons_cons, List.append_assoc, List.cons_append, List.nil_append,
        List.length_append, List.length_cons] at hfuel ⊢
      rw [parseMembers, hpart fuel _ (by omega)]
      simp only
      rw [ih (by simp) (by omega)]
      rfl

theorem intercalate_head {α : Type*} (separator : List α) (a : α) (l : List α) (ls : List (List α)) :
    ∃ tail, separator.intercalate ((a :: l) :: ls) = a :: tail := by
  cases ls with
  | nil => exact ⟨l, List.intercalate_singleton⟩
  | cons l' ls => exact ⟨_, List.intercalate_cons_cons.trans (List.cons_append ..)⟩

/-- No value begins with a closing bracket. -/
theorem Parses.ne_closeBracket {value : Value} {tokens : List Token} (h : Parses value tokens) :
    ∃ token tokens', tokens = token :: tokens' ∧ token ≠ .closeBracket := by
  cases tokens with
  | nil =>
    have hnone := h 1 [] (Nat.zero_le 1)
    simp [parseValue] at hnone
  | cons token tokens =>
    refine ⟨token, tokens, rfl, ?_⟩
    rintro rfl
    have hnone := h _ [] le_rfl
    simp [parseValue] at hnone

/-- An array of values that parse, parses. -/
theorem Parses.array {values : List Value} {parts : List (List Token)}
    (h : List.Forall₂ Parses values parts) (hne : values ≠ []) :
    Parses (.array values) (.openBracket :: ([Token.comma].intercalate parts ++ [.closeBracket])) := by
  intro fuel rest hfuel
  rw [List.length_cons, List.length_append, List.length_singleton] at hfuel
  obtain ⟨fuel, rfl⟩ : ∃ n, fuel = n + 1 := ⟨fuel - 1, by omega⟩
  have hparsed := parseElements_of_parses h hne (show _ < fuel by omega) rest
  rw [List.cons_append, List.append_assoc, List.singleton_append]
  cases h with
  | nil => exact absurd rfl hne
  | cons hvalue hvalues =>
    obtain ⟨token, tokens, rfl, htoken⟩ := hvalue.ne_closeBracket
    obtain ⟨tokens', htokens'⟩ := intercalate_head [Token.comma] token tokens _
    rw [htokens', List.cons_append] at hparsed ⊢
    rw [parseValue, hparsed]
    · rfl
    · rintro tokens'' heq
      cases heq
      exact htoken rfl

/-- So does an object. -/
theorem Parses.object {members : List (List UInt8 × Value)} {parts : List (List Token)}
    (h : List.Forall₂ (fun member part => ∃ tokens, part = .string member.1 :: .colon :: tokens ∧
      Parses member.2 tokens) members parts) (hne : members ≠ []) :
    Parses (.object members) (.openBrace :: ([Token.comma].intercalate parts ++ [.closeBrace])) := by
  intro fuel rest hfuel
  rw [List.length_cons, List.length_append, List.length_singleton] at hfuel
  obtain ⟨fuel, rfl⟩ : ∃ n, fuel = n + 1 := ⟨fuel - 1, by omega⟩
  have hparsed := parseMembers_of_parses h hne (show _ < fuel by omega) rest
  rw [List.cons_append, List.append_assoc, List.singleton_append]
  cases h with
  | nil => exact absurd rfl hne
  | cons hmember hmembers =>
    obtain ⟨tokens, rfl, -⟩ := hmember
    obtain ⟨tokens', htokens'⟩ := intercalate_head [Token.comma] _ (.colon :: tokens) _
    rw [htokens', List.cons_append] at hparsed ⊢
    rw [parseValue, hparsed]
    · rfl
    · rintro tokens'' heq
      cases heq

/-! ## Texts -/

/-- **The text denotes the value**, wherever it stands. -/
def Reads (text : List UInt8) (value : Value) : Prop :=
  ∃ tokens, Lexes text tokens ∧ Parses value tokens

/-- **What reads as a value parses as it.** -/
theorem parse_of_reads {text : List UInt8} {value : Value} (h : Reads text value) :
    parse text = some value := by
  obtain ⟨tokens, hlexes, hparses⟩ := h
  have htokens := hlexes [] delimited_nil
  rw [List.append_nil, tokenize, Option.map_some, List.append_nil] at htokens
  have hvalue := hparses tokens.length [] le_rfl
  rw [List.append_nil] at hvalue
  rw [parse, htokens, Option.bind_some]
  simp only [hvalue]

/-- A value of one token. -/
theorem Reads.of_token {text : List UInt8} {token : Token} {value : Value} (h : Lexes text [token])
    (hparse : ∀ fuel rest, parseValue (fuel + 1) (token :: rest) = some (value, rest)) :
    Reads text value := by
  refine ⟨[token], h, fun fuel rest hfuel => ?_⟩
  obtain ⟨fuel, rfl⟩ : ∃ n, fuel = n + 1 := ⟨fuel - 1, by simp at hfuel; omega⟩
  exact hparse fuel rest

/-- A string reads as its bytes. -/
theorem Reads.string {text value : List UInt8} (h : StringToken text value) :
    Reads text (.string value) :=
  .of_token (by simpa using Lexes.nil.string h) fun _ _ => by rw [parseValue]

theorem Reads.null : Reads [0x6e, 0x75, 0x6c, 0x6c] .null :=
  .of_token (show Lexes ([0x6e, 0x75, 0x6c, 0x6c] ++ []) _ from
    Lexes.nil.literal (by decide) rfl delimited_nil) fun _ _ => by rw [parseValue]

/-- A number reads as its text. -/
theorem Reads.number {text : List UInt8} (h : isNumber text = true) : Reads text (.number text) := by
  have hall : text.all isLiteral = true := isNumber_all isLiteral_of_isDigit (by decide +kernel) h
  have hliteral : literal text = some (.number text) := by
    unfold literal
    split_ifs with hnull htrue hfalse
    · rw [hnull] at h
      cases h
    · rw [htrue] at h
      cases h
    · rw [hfalse] at h
      cases h
    · rfl
  have hlexes : Lexes (text ++ []) [.number text] := Lexes.nil.literal hall hliteral delimited_nil
  rw [List.append_nil] at hlexes
  exact .of_token hlexes fun _ _ => by rw [parseValue]

/-- Texts with commas between them. -/
theorem lexes_intercalate {texts : List (List UInt8)} {parts : List (List Token)} {spaces : List UInt8}
    (hspaces : spaces.all isSpace = true) (h : List.Forall₂ Lexes texts parts) :
    Lexes ((0x2c :: spaces).intercalate texts) ([Token.comma].intercalate parts) := by
  induction h with
  | nil => exact .nil
  | cons hpart hparts ih =>
    cases hparts with
    | nil =>
      rw [List.intercalate_singleton, List.intercalate_singleton]
      exact hpart
    | cons _ _ =>
      rw [List.intercalate_cons_cons, List.intercalate_cons_cons, List.append_assoc, List.append_assoc]
      refine hpart.append ?_ (delimited_cons.mpr (by decide))
      exact (ih.spaces hspaces).punctuation rfl

/-- An array reads as its elements. -/
theorem Reads.array {texts : List (List UInt8)} {values : List Value} {spaces : List UInt8}
    (hspaces : spaces.all isSpace = true) (h : List.Forall₂ Reads texts values) (hne : texts ≠ []) :
    Reads (0x5b :: ((0x2c :: spaces).intercalate texts ++ [0x5d])) (.array values) := by
  obtain ⟨parts, hlexes, hparses⟩ : ∃ parts, List.Forall₂ Lexes texts parts ∧
      List.Forall₂ Parses values parts := by
    clear hne
    induction h with
    | nil => exact ⟨[], .nil, .nil⟩
    | cons hreads _ ih =>
      obtain ⟨tokens, hlexes, hparses⟩ := hreads
      obtain ⟨parts, hlexes', hparses'⟩ := ih
      exact ⟨tokens :: parts, .cons hlexes hlexes', .cons hparses hparses'⟩
  have hvalues : values ≠ [] := by
    rintro rfl
    cases h
    exact hne rfl
  refine ⟨_, ?_, .array hparses hvalues⟩
  have hclose : Lexes [0x5d] [Token.closeBracket] := Lexes.nil.punctuation rfl
  exact ((lexes_intercalate hspaces hlexes).append hclose (delimited_cons.mpr (by decide))).punctuation rfl

/-- A member: its name, a colon, and its value. -/
def ReadsMember (text : List UInt8) (member : List UInt8 × Value) : Prop :=
  ∃ tokens, Lexes text (.string member.1 :: .colon :: tokens) ∧ Parses member.2 tokens

/-- A member reads as its name and value. -/
theorem ReadsMember.mk {before key spaces text name : List UInt8} {value : Value}
    (hbefore : before.all isSpace = true) (hkey : StringToken key name)
    (hspaces : spaces.all isSpace = true) (h : Reads text value) :
    ReadsMember (before ++ (key ++ 0x3a :: (spaces ++ text))) (name, value) := by
  obtain ⟨tokens, hlexes, hparses⟩ := h
  exact ⟨tokens, .spaces hbefore (.string hkey (.punctuation rfl (.spaces hspaces hlexes))), hparses⟩

/-- **An object reads as its members**, whatever blanks stand between them. -/
theorem Reads.object {texts : List (List UInt8)} {members : List (List UInt8 × Value)}
    {spaces before after : List UInt8} (hspaces : spaces.all isSpace = true)
    (hbefore : before.all isSpace = true) (hafter : after.all isSpace = true)
    (h : List.Forall₂ ReadsMember texts members) (hne : texts ≠ []) :
    Reads (0x7b :: (before ++ ((0x2c :: spaces).intercalate texts ++ (after ++ [0x7d]))))
      (.object members) := by
  obtain ⟨parts, hlexes, hparses⟩ : ∃ parts, List.Forall₂ Lexes texts parts ∧
      List.Forall₂ (fun member part => ∃ tokens, part = .string member.1 :: .colon :: tokens ∧
        Parses member.2 tokens) members parts := by
    clear hne
    induction h with
    | nil => exact ⟨[], .nil, .nil⟩
    | cons hreads _ ih =>
      obtain ⟨tokens, hlexes, hparses⟩ := hreads
      obtain ⟨parts, hlexes', hparses'⟩ := ih
      exact ⟨_ :: parts, .cons hlexes hlexes', .cons ⟨tokens, rfl, hparses⟩ hparses'⟩
  have hmembers : members ≠ [] := by
    rintro rfl
    cases h
    exact hne rfl
  refine ⟨_, ?_, .object hparses hmembers⟩
  have hclose : Lexes (after ++ [0x7d]) [Token.closeBrace] :=
    .spaces hafter (Lexes.nil.punctuation rfl)
  have hdelimited : Delimited (after ++ [0x7d]) := by
    cases after with
    | nil => exact delimited_cons.mpr (by decide)
    | cons b after =>
      rw [List.all_cons, Bool.and_eq_true] at hafter
      exact delimited_cons.mpr (by simp [isLiteral, hafter.1])
  exact .punctuation rfl (.spaces hbefore ((lexes_intercalate hspaces hlexes).append hclose hdelimited))

end NetFT.Library.Json
