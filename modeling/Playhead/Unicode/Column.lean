import Playhead.Unicode.Property

/-!
# Text in columns

A screen is a grid of cells. Text is drawn cluster by cluster: a cluster is what a reader takes for
one character, such as a letter with its accents, and fills one column or more. `clusters` divides
text, and `drawn` says what the cells of a line then hold.
-/

namespace Playhead.Unicode

/-! ## Clusters -/

/-- Control characters and the like, which are a cluster by themselves. -/
def standsAlone (c : Char) : Bool := controls.holds c || formats.holds c

/-- The character that joins the pictures on both sides of it. -/
def joiner : Char := '\u200d'

/-- The character that keeps the characters on both sides of it from being joined. -/
def nonJoiner : Char := '\u200c'

/-- Whether a character never starts a cluster of its own accord. -/
def isAttached (c : Char) : Bool := extenders.holds c || spacingMarks.holds c || c == joiner

/-- Whether a Korean letter or syllable goes on with another one. -/
def continuesSyllable (last c : Char) : Bool :=
  let endsInVowel := syllables.holds last && (last.toNat - 0xAC00) % 28 == 0
  if leadingJamo.holds last then
    leadingJamo.holds c || vowelJamo.holds c || syllables.holds c
  else if vowelJamo.holds last || endsInVowel then vowelJamo.holds c || trailingJamo.holds c
  else if trailingJamo.holds last || syllables.holds last then trailingJamo.holds c
  else false

/-- Whether characters, newest first, end with a consonant that has lost its vowel. -/
def endsInLinked (done : List Char) : Bool :=
  let isMark (c : Char) : Bool := (extenders.holds c || c == joiner) && c != nonJoiner
  (done.takeWhile isMark).any linkers.holds &&
    ((done.dropWhile isMark).take 1).any consonants.holds

/-- Whether characters, newest first, end with a picture that wants to be joined to another. -/
def endsInJoiner : List Char → Bool
  | [] => false
  | last :: before =>
    last == joiner && ((before.dropWhile extenders.holds).take 1).any pictographs.holds

/-- Whether a character belongs to the cluster of the characters before it, newest first. -/
def belongs : List Char → Char → Bool
  | [], _ => false
  | last :: before, c =>
    if last == '\r' && c == '\n' then true
    else if standsAlone last || standsAlone c then false
    else
      isAttached c || prependedMarks.holds last || continuesSyllable last c ||
        (consonants.holds c && endsInLinked (last :: before)) ||
        (pictographs.holds c && endsInJoiner (last :: before)) ||
        (regional.holds c && ((last :: before).takeWhile regional.holds).length % 2 == 1)

/-- The clusters of a text; `done` has the start of the first one, newest first. -/
def clustersFrom (done : List Char) : List Char → List (List Char)
  | [] => if done.isEmpty then [] else [done.reverse]
  | c :: r =>
    if done.isEmpty || belongs done c then clustersFrom (c :: done) r
    else done.reverse :: clustersFrom [c] r

/-- The clusters of a text. -/
def clusters (s : List Char) : List (List Char) := clustersFrom [] s

/-- Nothing of a text is lost when it is divided. -/
theorem flatten_clustersFrom (done s : List Char) :
    (clustersFrom done s).flatten = done.reverse ++ s := by
  induction s generalizing done with
  | nil => cases done <;> simp [clustersFrom]
  | cons c r ih =>
    unfold clustersFrom
    split <;> simp [ih]

theorem flatten_clusters (s : List Char) : (clusters s).flatten = s :=
  flatten_clustersFrom [] s

/-! ## Columns -/

/-- The character that stands for a missing consonant in front of a Korean vowel. -/
def leadingFiller : Char := '\u115f'

/-- The columns that a character takes by itself. -/
def charWidth (c : Char) : Nat :=
  if c.toNat < 0xAD then 1
  else if skinTones.holds c || c == leadingFiller then 2
  else if ignorable.holds c || extenders.holds c || vowelJamo.holds c || trailingJamo.holds c ||
      overlays.holds c then 0
  else if wide.holds c then 2
  else 1

/-- The columns that a cluster takes. A variation selector or a skin tone makes a picture of the
character before it, another variation selector makes text of it, and what is joined to a picture
takes no more columns than the picture. -/
def width : List Char → Nat
  | [] => 0
  | base :: rest =>
    let next (p : Char → Bool) : Bool := (rest.take 1).any p
    if next (· == '\ufe0f') && textPictures.holds base then 2
    else if !pictographs.holds base then rest.foldl (fun n c => n + charWidth c) (charWidth base)
    else if next skinTones.holds then 2
    else if next (· == '\ufe0e') && !ideographPictures.holds base then 1
    else charWidth base

/-- What the cells of a line of so many columns hold once a text is drawn there. Clusters with a
control character and those that take no column are left out, a cluster leaves the other columns
that it takes blank, and the first that does not fit ends the line. -/
def drawn (columns : Nat) : List (List Char) → List Char
  | [] => []
  | cluster :: rest =>
    if cluster.any controls.holds || width cluster = 0 then drawn columns rest
    else if columns < width cluster then []
    else
      cluster ++ List.replicate (width cluster - 1) ' ' ++ drawn (columns - width cluster) rest

end Playhead.Unicode
