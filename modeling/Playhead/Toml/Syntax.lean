import Playhead.Toml.Atom
import Playhead.Toml.Quoted
import Playhead.Toml.Tree

/-!
# The grammar of TOML

Each reader takes something from the front of a list of characters and hands on what is left,
which is shorter. Values can hold values, so there the proof of that travels with the result
(`Parsed`); it is why the readers end, and no other bound is needed.
-/

namespace Playhead.Toml

/-! ## Blanks and line ends -/

def isSpace (c : Char) : Bool := c == ' ' || c == '\t'

/-- Skip blanks within a line. -/
def skipSpace (s : List Char) : List Char := s.dropWhile isSpace

theorem skipSpace_length (s : List Char) : (skipSpace s).length ≤ s.length :=
  dropWhile_length_le _ _

/-- Skip blanks, comments and line breaks. A character that no comment may hold ends the gap, and
nothing that can follow a gap starts with such a character. -/
def skipGap (s : List Char) : List Char :=
  match s with
  | [] => []
  | '\r' :: '\n' :: r => skipGap r
  | '#' :: r => skipGap (r.dropWhile isText)
  | c :: r => if isSpace c || c == '\n' then skipGap r else c :: r
termination_by s.length
decreasing_by
  · simp only [List.length_cons]
    omega
  · have := dropWhile_length_le isText r
    simp only [List.length_cons]
    omega
  · simp

theorem skipGap_length (s : List Char) : (skipGap s).length ≤ s.length := by
  fun_induction skipGap s with
  | case1 => exact Nat.le_refl _
  | case2 r ih =>
    simp only [List.length_cons]
    omega
  | case3 r ih =>
    have := dropWhile_length_le isText r
    simp only [List.length_cons]
    omega
  | case4 c r _ _ _ ih =>
    simp only [List.length_cons]
    omega
  | case5 => exact Nat.le_refl _

/-- Skip the rest of a line that may hold only blanks and a comment. -/
def endLine? (s : List Char) : Option (List Char) :=
  match skipComment (skipSpace s) with
  | [] => some []
  | '\n' :: r => some r
  | '\r' :: '\n' :: r => some r
  | _ => none
where
  skipComment : List Char → List Char
    | '#' :: r => r.dropWhile isText
    | s => s

theorem endLine?.skipComment_length (s : List Char) :
    (endLine?.skipComment s).length ≤ s.length := by
  unfold endLine?.skipComment
  split
  · next r =>
    have := dropWhile_length_le isText r
    simp only [List.length_cons]
    omega
  · exact Nat.le_refl _

theorem endLine?_length {s r : List Char} (h : endLine? s = some r) : r.length ≤ s.length := by
  unfold endLine? at h
  have h₁ := skipSpace_length s
  have h₂ := endLine?.skipComment_length (skipSpace s)
  split at h
  · cases h
    simp
  · next heq =>
    cases h
    rw [heq, List.length_cons] at h₂
    omega
  · next heq =>
    cases h
    rw [heq] at h₂
    simp only [List.length_cons] at h₂
    omega
  · cases h

/-! ## Keys -/

def isBareKey (c : Char) : Bool := c.isAlphanum || c == '-' || c == '_'

/-- One key, bare or quoted. -/
def key? (s : List Char) : Option (String × List Char) :=
  match s with
  | '"' :: r => (basic? r []).map fun (key, r) => (String.ofList key, r)
  | '\'' :: r => (literal? r []).map fun (key, r) => (String.ofList key, r)
  | s =>
    if (s.takeWhile isBareKey).isEmpty then none
    else some (String.ofList (s.takeWhile isBareKey), s.dropWhile isBareKey)

theorem key?_length {s r : List Char} {key : String} (h : key? s = some (key, r)) :
    r.length < s.length := by
  unfold key? at h
  split at h
  · next r' =>
    obtain ⟨⟨t, u⟩, hq, heq⟩ := Option.map_eq_some_iff.1 h
    have := basic?_length hq
    simp only [Prod.mk.injEq] at heq
    rw [← heq.2, List.length_cons]
    omega
  · next r' =>
    obtain ⟨⟨t, u⟩, hq, heq⟩ := Option.map_eq_some_iff.1 h
    have := literal?_length hq
    simp only [Prod.mk.injEq] at heq
    rw [← heq.2, List.length_cons]
    omega
  · split at h
    · cases h
    · next hne =>
      simp only [Option.some.injEq, Prod.mk.injEq] at h
      have hall := congrArg List.length (List.takeWhile_append_dropWhile (p := isBareKey) (l := s))
      rw [List.length_append] at hall
      have : (s.takeWhile isBareKey).length ≠ 0 := by
        intro hzero
        exact hne (by simp [List.length_eq_zero_iff.1 hzero])
      rw [← h.2]
      omega

/-- Arrays and tables written in one piece nest at most so deep, and so many keys make up a path
at most. -/
def maxDepth : Nat := 80

/-- Keys with dots between them, and any blanks behind them. -/
def keys? (s : List Char) : Option (List String × List Char) :=
  match _h : key? s with
  | none => none
  | some (key, r) =>
    match _h' : skipSpace r with
    | '.' :: behind => (keys? (skipSpace behind)).map fun (keys, rest) => (key :: keys, rest)
    | behind => some ([key], behind)
termination_by s.length
decreasing_by
  have h₁ := key?_length _h
  have h₂ := skipSpace_length r
  have h₃ := skipSpace_length behind
  rw [_h', List.length_cons] at h₂
  omega

theorem keys?_length {s r : List Char} {keys : List String} (h : keys? s = some (keys, r)) :
    r.length < s.length := by
  fun_induction keys? s generalizing keys r with
  | case1 => cases h
  | case2 s key r' hkey r'' hdot ih =>
    obtain ⟨⟨t, u⟩, hkeys, heq⟩ := Option.map_eq_some_iff.1 h
    simp only [Prod.mk.injEq] at heq
    have h₁ := ih hkeys
    have h₂ := key?_length hkey
    have h₃ := skipSpace_length r'
    have h₄ := skipSpace_length r''
    rw [hdot, List.length_cons] at h₃
    rw [← heq.2]
    omega
  | case3 s key r' hkey r'' =>
    simp only [Option.some.injEq, Prod.mk.injEq] at h
    have h₂ := key?_length hkey
    have h₃ := skipSpace_length r'
    rw [← h.2]
    omega

/-- A path of keys, and any blanks behind it. -/
def path? (s : List Char) : Option (List String × List Char) :=
  (keys? s).filter fun (keys, _) => keys.length ≤ maxDepth

theorem path?_length {s r : List Char} {path : List String} (h : path? s = some (path, r)) :
    r.length < s.length :=
  keys?_length (Option.filter_eq_some_iff.1 h).1

/-! ## Values -/

/-- Something read from the front of `s`, and the shorter rest. -/
structure Parsed (α : Type) (s : List Char) where
  value : α
  rest : List Char
  shorter : rest.length < s.length

namespace Parsed

variable {α : Type} {s t : List Char}

/-- What was read from the end of a text was read from the text. -/
def within (p : Parsed α t) (h : t.length ≤ s.length) : Parsed α s :=
  ⟨p.value, p.rest, Nat.lt_of_lt_of_le p.shorter h⟩

/-- What was read from one of two equal texts was read from the other. -/
def ofEq (p : Parsed α t) (h : s = t) : Parsed α s := p.within (h ▸ Nat.le_refl _)

/-- What was read behind a character. -/
def after (p : Parsed α t) (c : Char) : Parsed α (c :: t) := p.within (Nat.le_succ _)

/-- What was read behind blanks within a line. -/
def afterSpace (p : Parsed α (skipSpace s)) : Parsed α s := p.within (skipSpace_length s)

/-- What was read behind a gap. -/
def afterGap (p : Parsed α (skipGap s)) : Parsed α s := p.within (skipGap_length s)

/-- What was read behind a path of keys. -/
def afterPath {path : List String} (p : Parsed α t) (h : path? s = some (path, t)) : Parsed α s :=
  p.within (Nat.le_of_lt (path?_length h))

/-- What was read behind something else. -/
def andThen {β : Type} (p : Parsed α s) (q : Parsed β p.rest) : Parsed β s :=
  q.within (Nat.le_of_lt p.shorter)

/-- Something that ends with a character at the front. -/
def endingWith (c : Char) (t : List Char) (value : α) : Parsed α (c :: t) :=
  ⟨value, t, Nat.lt_succ_self _⟩

/-- A string that a reader of quoted text found. -/
def ofQuoted (read : Option (List Char × List Char))
    (shorter : ∀ {x r}, read = some (x, r) → r.length < s.length) : Option (Parsed Value s) :=
  match read, @shorter with
  | some (x, r), shorter => some ⟨.string (String.ofList x), r, shorter rfl⟩
  | none, _ => none

end Parsed

/-! ### Strings, behind their opening quotes -/

def basicString? (s : List Char) : Option (Parsed Value s) :=
  Parsed.ofQuoted (basic? s []) basic?_length

def literalString? (s : List Char) : Option (Parsed Value s) :=
  Parsed.ofQuoted (literal? s []) literal?_length

def multiBasicString? (s : List Char) : Option (Parsed Value s) :=
  (Parsed.ofQuoted (multiBasic? (skipFirstBreak s) []) multiBasic?_length).map
    (·.within (skipFirstBreak_length s))

def multiLiteralString? (s : List Char) : Option (Parsed Value s) :=
  (Parsed.ofQuoted (multiLiteral? (skipFirstBreak s) []) multiLiteral?_length).map
    (·.within (skipFirstBreak_length s))

/-! ### Values without quotes -/

/-- Whether a character belongs to a value without quotes that has started: all do but those that
mark off parts of a document. -/
def isAtom (c : Char) : Bool :=
  !(isSpace c || c == '\n' || c == '\r' || c == '#' || c == '=' || c == ',' || c == '[' ||
    c == ']' || c == '{' || c == '}')

/-- A value without quotes at the front. A date and a time may stand apart by one blank. -/
def bare? (s : List Char) : Option (Value × List Char) :=
  let front := s.takeWhile isAtom
  let behind := s.dropWhile isAtom
  match day? front, behind with
  | some (_, []), ' ' :: c :: r =>
    if c.isDigit then
      (atom? (front ++ ' ' :: (c :: r).takeWhile isAtom)).map (·, (c :: r).dropWhile isAtom)
    else (atom? front).map (·, behind)
  | _, _ => (atom? front).map (·, behind)

theorem atom?_nil : atom? [] = none := by
  decide

theorem bare?_length {s r : List Char} {v : Value} (h : bare? s = some (v, r)) :
    r.length < s.length := by
  have hall := congrArg List.length (List.takeWhile_append_dropWhile (p := isAtom) (l := s))
  rw [List.length_append] at hall
  have plain : ∀ {r}, (atom? (s.takeWhile isAtom)).map (·, s.dropWhile isAtom) = some (v, r) →
      r.length < s.length := by
    intro r h
    obtain ⟨w, hw, heq⟩ := Option.map_eq_some_iff.1 h
    simp only [Prod.mk.injEq] at heq
    have : (s.takeWhile isAtom).length ≠ 0 := by
      intro hzero
      rw [List.length_eq_zero_iff.1 hzero, atom?_nil] at hw
      cases hw
    rw [← heq.2]
    omega
  unfold bare? at h
  dsimp only at h
  split at h
  · next c r' _ hbehind =>
    split at h
    · obtain ⟨w, hw, heq⟩ := Option.map_eq_some_iff.1 h
      simp only [Prod.mk.injEq] at heq
      have hd := dropWhile_length_le isAtom (c :: r')
      rw [hbehind] at hall
      simp only [List.length_cons] at hall hd
      rw [← heq.2]
      omega
    · exact plain h
  · exact plain h

/-- `bare?` with its result as something read. -/
def bareValue? (s : List Char) : Option (Parsed Value s) :=
  match h : bare? s with
  | some (v, r) => some ⟨v, r, bare?_length h⟩
  | none => none

/-! ### All values -/

mutual

/-- A value at the front, with arrays and tables nested at most `depth` deep. -/
def value? (depth : Nat) (s : List Char) : Option (Parsed Value s) :=
  match s with
  | '"' :: '"' :: '"' :: r =>
    (multiBasicString? r).map fun p => ((p.after '"').after '"').after '"'
  | '\'' :: '\'' :: '\'' :: r =>
    (multiLiteralString? r).map fun p => ((p.after '\'').after '\'').after '\''
  | '"' :: r => (basicString? r).map (·.after '"')
  | '\'' :: r => (literalString? r).map (·.after '\'')
  | '[' :: r =>
    match depth with
    | 0 => none
    | depth + 1 => (items? depth r []).map (·.after '[')
  | '{' :: r =>
    match depth with
    | 0 => none
    | depth + 1 => (pairs? depth r []).map (·.after '{')
  | s => bareValue? s
termination_by 2 * s.length
decreasing_by all_goals simp only [List.length_cons]; omega

/-- The items of an array that are left, and its closing bracket; `done` has those before,
backwards. -/
def items? (depth : Nat) (s : List Char) (done : List Value) : Option (Parsed Value s) :=
  match value? depth (skipGap s) with
  | some p =>
    match hrest : skipGap p.rest with
    | ',' :: r =>
      (items? depth r (p.value :: done)).map fun q =>
        (p.andThen ((q.after ',').ofEq hrest).afterGap).afterGap
    | ']' :: r =>
      let q := Parsed.endingWith ']' r (.array (p.value :: done).reverse)
      some (p.andThen (q.ofEq hrest).afterGap).afterGap
    | _ => none
  | none =>
    match hend : skipGap s with
    | ']' :: r => some ((Parsed.endingWith ']' r (.array done.reverse)).ofEq hend).afterGap
    | _ => none
termination_by 2 * s.length + 1
decreasing_by
  · have := skipGap_length s
    omega
  · have h₁ := skipGap_length s
    have h₂ := skipGap_length p.rest
    have h₃ := p.shorter
    rw [hrest, List.length_cons] at h₂
    omega

/-- The entries of a table in braces that are left, and its closing brace. -/
def pairs? (depth : Nat) (s : List Char) (done : List (List String × Value)) :
    Option (Parsed Value s) :=
  match hpath : path? (skipGap s) with
  | some (path, behind) =>
    match heq : skipGap behind with
    | '=' :: r =>
      match value? depth (skipGap r) with
      | some p =>
        match hrest : skipGap p.rest with
        | ',' :: r' =>
          (pairs? depth r' ((path, p.value) :: done)).map fun q =>
            let q := p.andThen ((q.after ',').ofEq hrest).afterGap
            (((q.afterGap.after '=').ofEq heq).afterGap.afterPath hpath).afterGap
        | '}' :: r' =>
          (inlineTable? ((path, p.value) :: done).reverse).map fun table =>
            let q := p.andThen ((Parsed.endingWith '}' r' table).ofEq hrest).afterGap
            (((q.afterGap.after '=').ofEq heq).afterGap.afterPath hpath).afterGap
        | _ => none
      | none => none
    | _ => none
  | none =>
    match hend : skipGap s with
    | '}' :: r =>
      (inlineTable? done.reverse).map fun table =>
        ((Parsed.endingWith '}' r table).ofEq hend).afterGap
    | _ => none
termination_by 2 * s.length + 1
decreasing_by
  · have h₁ := skipGap_length s
    have h₂ := skipGap_length behind
    have h₄ := path?_length hpath
    have h₅ := skipGap_length r
    rw [heq, List.length_cons] at h₂
    omega
  · have h₁ := skipGap_length s
    have h₂ := skipGap_length p.rest
    have h₃ := p.shorter
    have h₄ := path?_length hpath
    have h₅ := skipGap_length r
    have h₆ := skipGap_length behind
    rw [hrest, List.length_cons] at h₂
    rw [heq, List.length_cons] at h₆
    omega

end

/-! ## Statements -/

/-- What one line of a document, or several for a long value, says. -/
inductive Statement where
  /-- `a.b = value` -/
  | entry (path : List String) (value : Value)
  /-- `[a.b]` -/
  | openTable (path : List String)
  /-- `[[a.b]]` -/
  | openItem (path : List String)

/-- A statement at the front. -/
def statement? (s : List Char) : Option (Parsed Statement s) :=
  match s with
  | '[' :: '[' :: r =>
    match h : path? (skipSpace r) with
    | some (path, ']' :: ']' :: r') =>
      let p := (Parsed.endingWith ']' r' (.openItem path)).after ']'
      some (((p.afterPath h).afterSpace.after '[').after '[')
    | _ => none
  | '[' :: r =>
    match h : path? (skipSpace r) with
    | some (path, ']' :: r') =>
      let p := Parsed.endingWith ']' r' (.openTable path)
      some ((p.afterPath h).afterSpace.after '[')
    | _ => none
  | s =>
    match h : path? s with
    | some (path, '=' :: r) =>
      (value? maxDepth (skipSpace r)).map fun p =>
        let q := (p.afterSpace.after '=').afterPath h
        ⟨.entry path q.value, q.rest, q.shorter⟩
    | _ => none

/-- All statements of a document; `done` has those before, backwards. -/
def statements? (s : List Char) (done : List Statement) : Option (List Statement) :=
  match statement? (skipGap s) with
  | some p =>
    match _h : endLine? p.rest with
    | some r => statements? r (p.value :: done)
    | none => none
  | none => if (skipGap s).isEmpty then some done.reverse else none
termination_by s.length
decreasing_by
  have h₁ := skipGap_length s
  have h₂ := endLine?_length _h
  have h₃ := p.shorter
  omega

end Playhead.Toml
