/-!
# Quoted text

The four kinds of string in TOML. Each reader takes the characters behind the opening quotes and
gives the text together with what follows the closing quotes; the `_length` lemmas say that it
consumes something. Control characters other than the tab never stand in text.
-/

namespace Playhead.Toml

/-- Whether a character may stand in text and in comments. -/
def isText (c : Char) : Bool := c == '\t' || (0x20 ≤ c.toNat && c.toNat != 0x7F)

/-- The value of a hexadecimal digit. -/
def hexDigit? (c : Char) : Option Nat :=
  if '0' ≤ c && c ≤ '9' then some (c.toNat - '0'.toNat)
  else if 'a' ≤ c && c ≤ 'f' then some (c.toNat - 'a'.toNat + 10)
  else if 'A' ≤ c && c ≤ 'F' then some (c.toNat - 'A'.toNat + 10)
  else none

/-- The number that hexadecimal digits write, after `n`. -/
def hexNumber? (n : Nat) : List Char → Option Nat
  | [] => some n
  | c :: rest => (hexDigit? c).bind fun d => hexNumber? (16 * n + d) rest

/-- The character with the code that hexadecimal digits write. -/
def hexChar? (digits : List Char) : Option Char :=
  (hexNumber? 0 digits).bind fun n => if n.isValidChar then some (Char.ofNat n) else none

/-- The character that an escape stands for, and what follows it; the backslash is already read. -/
def escape? : List Char → Option (Char × List Char)
  | 'b' :: r => some ('\x08', r)
  | 't' :: r => some ('\t', r)
  | 'n' :: r => some ('\n', r)
  | 'f' :: r => some ('\x0c', r)
  | 'r' :: r => some ('\r', r)
  | 'e' :: r => some ('\x1b', r)
  | '"' :: r => some ('"', r)
  | '\\' :: r => some ('\\', r)
  | 'x' :: a :: b :: r => (hexChar? [a, b]).map (·, r)
  | 'u' :: a :: b :: c :: d :: r => (hexChar? [a, b, c, d]).map (·, r)
  | 'U' :: a :: b :: c :: d :: e :: f :: g :: h :: r =>
    (hexChar? [a, b, c, d, e, f, g, h]).map (·, r)
  | _ => none

theorem escape?_length {s r : List Char} {c : Char} (h : escape? s = some (c, r)) :
    r.length < s.length := by
  unfold escape? at h
  split at h <;>
    simp only [Option.some.injEq, Prod.mk.injEq, Option.map_eq_some_iff, reduceCtorEq] at h
  all_goals first
    | (obtain ⟨-, rfl⟩ := h; simp)
    | (obtain ⟨_, -, -, rfl⟩ := h; simp only [List.length_cons]; omega)

/-- A string in double quotes; `done` has the text so far, backwards. -/
def basic? (s done : List Char) : Option (List Char × List Char) :=
  match s with
  | [] => none
  | '"' :: r => some (done.reverse, r)
  | '\\' :: r =>
    match _h : escape? r with
    | some (c, rest) => basic? rest (c :: done)
    | none => none
  | c :: r => if isText c then basic? r (c :: done) else none
termination_by s.length
decreasing_by
  · have := escape?_length _h
    simp only [List.length_cons]
    omega
  · simp

theorem basic?_length {s done t r : List Char} (h : basic? s done = some (t, r)) :
    r.length < s.length := by
  fun_induction basic? s done with
  | case1 => simp at h
  | case2 => simp_all
  | case3 done r c rest hesc ih =>
    have := ih h
    have := escape?_length hesc
    simp only [List.length_cons]
    omega
  | case4 => simp at h
  | case5 done c r _ _ _ ih =>
    have := ih h
    simp only [List.length_cons]
    omega
  | case6 => simp at h

/-- A string in single quotes. -/
def literal? : List Char → List Char → Option (List Char × List Char)
  | [], _ => none
  | '\'' :: r, done => some (done.reverse, r)
  | c :: r, done => if isText c then literal? r (c :: done) else none

theorem literal?_length {s done t r : List Char} (h : literal? s done = some (t, r)) :
    r.length < s.length := by
  fun_induction literal? s done with
  | case1 => simp at h
  | case2 => simp_all
  | case3 done c r _ _ ih =>
    have := ih h
    simp only [List.length_cons]
    omega
  | case4 => simp at h

/-- A line break right behind the opening of a string over several lines is not part of it. -/
def skipFirstBreak : List Char → List Char
  | '\n' :: r => r
  | '\r' :: '\n' :: r => r
  | s => s

theorem skipFirstBreak_length (s : List Char) : (skipFirstBreak s).length ≤ s.length := by
  unfold skipFirstBreak
  split
  · simp
  · simp only [List.length_cons]
    omega
  · exact Nat.le_refl _

/-- Up to two quotes directly behind the closing ones belong to the text. -/
def closing (quote : Char) (done : List Char) : List Char → List Char × List Char
  | a :: b :: r =>
    if a = quote then
      if b = quote then ((quote :: quote :: done).reverse, r) else ((quote :: done).reverse, b :: r)
    else (done.reverse, a :: b :: r)
  | [a] => if a = quote then ((quote :: done).reverse, []) else (done.reverse, [a])
  | [] => (done.reverse, [])

theorem closing_length (quote : Char) (done s : List Char) :
    (closing quote done s).2.length ≤ s.length := by
  unfold closing
  repeat' split
  all_goals simp only [List.length_cons, List.length_nil]; omega

/-- What follows a backslash at the end of a line: the next character that is neither blank nor a
line break. It is `none` if the backslash does not end its line. -/
def afterLineEnd? (s : List Char) : Option (List Char) :=
  match s.dropWhile fun c => c == ' ' || c == '\t' with
  | '\n' :: r => some (skip r)
  | '\r' :: '\n' :: r => some (skip r)
  | _ => none
where
  skip : List Char → List Char
    | [] => []
    | '\r' :: '\n' :: r => skip r
    | c :: r => if c == ' ' || c == '\t' || c == '\n' then skip r else c :: r

theorem afterLineEnd?.skip_length (s : List Char) :
    (afterLineEnd?.skip s).length ≤ s.length := by
  fun_induction afterLineEnd?.skip s with
  | case1 => simp
  | case2 r ih => simp only [List.length_cons]; omega
  | case3 c r _ _ ih => simp only [List.length_cons]; omega
  | case4 c r => exact Nat.le_refl _

theorem dropWhile_length_le (p : Char → Bool) (s : List Char) :
    (s.dropWhile p).length ≤ s.length := (List.dropWhile_sublist p).length_le

theorem afterLineEnd?_length {s r : List Char} (h : afterLineEnd? s = some r) :
    r.length < s.length := by
  unfold afterLineEnd? at h
  have hdrop := dropWhile_length_le (fun c => c == ' ' || c == '\t') s
  split at h
  · next t heq =>
    cases h
    have := afterLineEnd?.skip_length t
    rw [heq, List.length_cons] at hdrop
    omega
  · next t heq =>
    cases h
    have := afterLineEnd?.skip_length t
    rw [heq] at hdrop
    simp only [List.length_cons] at hdrop
    omega
  · cases h

/-- A string in three double quotes. -/
def multiBasic? (s done : List Char) : Option (List Char × List Char) :=
  match s with
  | [] => none
  | '"' :: '"' :: '"' :: r => some (closing '"' done r)
  | '\r' :: '\n' :: r => multiBasic? r ('\n' :: '\r' :: done)
  | '\\' :: r =>
    match _h : afterLineEnd? r with
    | some rest => multiBasic? rest done
    | none =>
      match _h' : escape? r with
      | some (c, rest) => multiBasic? rest (c :: done)
      | none => none
  | c :: r => if isText c || c == '\n' then multiBasic? r (c :: done) else none
termination_by s.length
decreasing_by
  · simp only [List.length_cons]
    omega
  · have := afterLineEnd?_length _h
    simp only [List.length_cons]
    omega
  · have := escape?_length _h'
    simp only [List.length_cons]
    omega
  · simp

theorem multiBasic?_length {s done t r : List Char} (h : multiBasic? s done = some (t, r)) :
    r.length < s.length := by
  fun_induction multiBasic? s done with
  | case1 => simp at h
  | case2 done r' =>
    have := closing_length '"' done r'
    simp only [Option.some.injEq] at h
    simp only [h] at this
    simp only [List.length_cons]
    omega
  | case3 done r ih =>
    have := ih h
    simp only [List.length_cons]
    omega
  | case4 done r rest hline ih =>
    have := ih h
    have := afterLineEnd?_length hline
    simp only [List.length_cons]
    omega
  | case5 done r _ c rest hesc ih =>
    have := ih h
    have := escape?_length hesc
    simp only [List.length_cons]
    omega
  | case6 => simp at h
  | case7 done c r _ _ _ _ ih =>
    have := ih h
    simp only [List.length_cons]
    omega
  | case8 => simp at h

/-- A string in three single quotes. -/
def multiLiteral? : List Char → List Char → Option (List Char × List Char)
  | [], _ => none
  | '\'' :: '\'' :: '\'' :: r, done => some (closing '\'' done r)
  | '\r' :: '\n' :: r, done => multiLiteral? r ('\n' :: '\r' :: done)
  | c :: r, done => if isText c || c == '\n' then multiLiteral? r (c :: done) else none

theorem multiLiteral?_length {s done t r : List Char} (h : multiLiteral? s done = some (t, r)) :
    r.length < s.length := by
  fun_induction multiLiteral? s done with
  | case1 => simp at h
  | case2 r' done =>
    have := closing_length '\'' done r'
    simp only [Option.some.injEq] at h
    simp only [h] at this
    simp only [List.length_cons]
    omega
  | case3 done r ih =>
    have := ih h
    simp only [List.length_cons]
    omega
  | case4 done c r _ _ _ ih =>
    have := ih h
    simp only [List.length_cons]
    omega
  | case5 => simp at h

end Playhead.Toml
