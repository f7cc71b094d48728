import Bhasha.Text.Conjunct
import Bhasha.Text.Extending
import Bhasha.Text.Pictograph
import Bhasha.Text.SpacingMark

/-!
# Grapheme clusters

What a reader takes for one character may be written with several: a letter
and its marks, the parts of a Hangul syllable, consonants that are linked into
a conjunct, joined emoji, or the two letters of a flag.  The extended grapheme
clusters of Unicode divide a text into such units.  Whether the text may be
divided before a character depends on its class and on what comes before it in
the same cluster.
-/

namespace Bhasha.Text

/-! ## Classes -/

/-- The role of a character in a grapheme cluster. -/
inductive ClusterClass where
  | carriageReturn
  | lineFeed
  | control
  | extend
  | joiner
  | spacingMark
  | prepended
  | regional
  | leadingConsonant
  | vowel
  | trailingConsonant
  | openSyllable
  | closedSyllable
  | consonant
  | pictograph
  | other
deriving DecidableEq

/-- The code points that always stand alone, besides the line ends. -/
def clusterControlRanges : Ranges :=
  [(0x0, 0x1F), (0x7F, 0x9F), (0xAD, 0xAD), (0x61C, 0x61C), (0x180E, 0x180E),
   (0x200B, 0x200B), (0x200E, 0x200F), (0x2028, 0x202E), (0x2060, 0x206F),
   (0xFEFF, 0xFEFF), (0xFFF0, 0xFFFB), (0x13430, 0x1343F),
   (0x1BCA0, 0x1BCA3), (0x1D173, 0x1D17A), (0xE0000, 0xE001F),
   (0xE0080, 0xE00FF), (0xE01F0, 0xE0FFF)]

/-- The code points that extend a cluster without being marks. -/
def clusterExtenderRanges : Ranges :=
  [(0x200C, 0x200C), (0xFF9E, 0xFF9F), (0x1F3FB, 0x1F3FF), (0xE0020, 0xE007F)]

/-- The code points that belong to the character after them. -/
def prependedRanges : Ranges :=
  [(0x600, 0x605), (0x6DD, 0x6DD), (0x70F, 0x70F), (0x890, 0x891),
   (0x8E2, 0x8E2), (0xD4E, 0xD4E), (0x110BD, 0x110BD), (0x110CD, 0x110CD),
   (0x111C2, 0x111C3), (0x113D1, 0x113D1), (0x1193F, 0x1193F),
   (0x11941, 0x11941), (0x11A84, 0x11A89), (0x11D46, 0x11D46),
   (0x11F02, 0x11F02)]

/-- The consonants that start a Hangul syllable. -/
def leadingConsonantRanges : Ranges :=
  [(0x1100, 0x115F), (0xA960, 0xA97C)]

/-- The vowels of Hangul syllables, and vowel signs that behave like them. -/
def vowelRanges : Ranges :=
  [(0x1160, 0x11A7), (0xD7B0, 0xD7C6), (0x16D63, 0x16D63),
   (0x16D67, 0x16D6A)]

/-- The consonants that end a Hangul syllable. -/
def trailingConsonantRanges : Ranges :=
  [(0x11A8, 0x11FF), (0xD7CB, 0xD7FB)]

/-- The Hangul syllables, in groups of 28 that start with an open one. -/
def syllableRanges : Ranges :=
  [(0xAC00, 0xD7A3)]

/-- The letters that stand in pairs for flags. -/
def regionalRanges : Ranges :=
  [(0x1F1E6, 0x1F1FF)]

/-- The zero width joiner. -/
def zeroWidthJoiner : Char :=
  '\u200d'

/-- The zero width non-joiner. -/
def zeroWidthNonJoiner : Char :=
  '\u200c'

namespace ClusterClass

/-- The class of a character. -/
def ofChar (character : Char) : ClusterClass :=
  let code := character.toNat
  if character = '\r' then
    .carriageReturn
  else if character = '\n' then
    .lineFeed
  else if clusterControlRanges.contains code then
    .control
  else if character = zeroWidthJoiner then
    .joiner
  else if isExtendingMark character || clusterExtenderRanges.contains code then
    .extend
  else if isSpacingMark character then
    .spacingMark
  else if isConsonant character then
    .consonant
  else if prependedRanges.contains code then
    .prepended
  else if leadingConsonantRanges.contains code then
    .leadingConsonant
  else if vowelRanges.contains code then
    .vowel
  else if trailingConsonantRanges.contains code then
    .trailingConsonant
  else if syllableRanges.contains code then
    if (code - 0xAC00) % 28 = 0 then .openSyllable else .closedSyllable
  else if regionalRanges.contains code then
    .regional
  else if isPictograph character then
    .pictograph
  else
    .other

end ClusterClass

/-! ## What comes before -/

/-- How far a cluster has come toward a conjunct of consonants. -/
inductive ConjunctState where
  | none
  /-- A consonant and signs after it, but no linker. -/
  | consonant
  /-- A consonant and signs after it with a linker among them. -/
  | linked
deriving DecidableEq

/-- How far a cluster has come toward joined pictographs. -/
inductive PictographState where
  | none
  /-- A pictograph and what extends it. -/
  | pictograph
  /-- A pictograph, what extends it, and then a joiner. -/
  | joined
deriving DecidableEq

/-- What the end of a cluster says about the character after it. -/
structure ClusterContext where
  last : ClusterClass
  conjunct : ConjunctState
  pictograph : PictographState
  /-- Whether the cluster ends with an odd number of regional letters. -/
  oddRegional : Bool

namespace ClusterContext

/-- The conjunct state after one more character. -/
def nextConjunct (state : ConjunctState) (character : Char)
    (cls : ClusterClass) : ConjunctState :=
  if cls = .consonant then
    .consonant
  else if isLinker character then
    if state = .none then .none else .linked
  else if (cls = .extend || cls = .joiner) &&
      character ≠ zeroWidthNonJoiner then
    state
  else
    .none

/-- The pictograph state after one more character. -/
def nextPictograph (state : PictographState) (cls : ClusterClass) :
    PictographState :=
  match cls, state with
  | .pictograph, _ => .pictograph
  | .extend, .pictograph => .pictograph
  | .joiner, .pictograph => .joined
  | _, _ => .none

/-- The context after the first character of a cluster. -/
def start (character : Char) : ClusterContext :=
  let cls := ClusterClass.ofChar character
  { last := cls
    conjunct := nextConjunct .none character cls
    pictograph := nextPictograph .none cls
    oddRegional := cls = .regional }

/-- The context after one more character of a cluster. -/
def push (context : ClusterContext) (character : Char) : ClusterContext :=
  let cls := ClusterClass.ofChar character
  { last := cls
    conjunct := nextConjunct context.conjunct character cls
    pictograph := nextPictograph context.pictograph cls
    oddRegional := cls = .regional && !context.oddRegional }

/-- Whether a character of a class goes on with the cluster. -/
def joins (context : ClusterContext) (next : ClusterClass) : Bool :=
  match context.last, next with
  | .carriageReturn, .lineFeed => true
  | .carriageReturn, _ | .lineFeed, _ | .control, _ => false
  | _, .carriageReturn | _, .lineFeed | _, .control => false
  | .leadingConsonant, .leadingConsonant | .leadingConsonant, .vowel
  | .leadingConsonant, .openSyllable
  | .leadingConsonant, .closedSyllable => true
  | .openSyllable, .vowel | .openSyllable, .trailingConsonant
  | .vowel, .vowel | .vowel, .trailingConsonant => true
  | .closedSyllable, .trailingConsonant
  | .trailingConsonant, .trailingConsonant => true
  | _, .extend | _, .joiner | _, .spacingMark => true
  | .prepended, _ => true
  | _, .consonant => context.conjunct = .linked
  | .joiner, .pictograph => context.pictograph = .joined
  | .regional, .regional => context.oddRegional
  | _, _ => false

end ClusterContext

/-! ## Dividing a text -/

/-- The clusters of a text that goes on with an unfinished cluster. -/
def clustersAfter (context : ClusterContext) (unfinished : List Char) :
    List Char → List (List Char)
  | [] => [unfinished]
  | character :: rest =>
    if context.joins (ClusterClass.ofChar character) then
      clustersAfter (context.push character) (unfinished ++ [character]) rest
    else
      unfinished :: clustersAfter (.start character) [character] rest

/-- The grapheme clusters of a text. -/
def clusters : List Char → List (List Char)
  | [] => []
  | character :: rest => clustersAfter (.start character) [character] rest

theorem flatten_clustersAfter (context : ClusterContext)
    (unfinished text : List Char) :
    (clustersAfter context unfinished text).flatten = unfinished ++ text := by
  induction text generalizing context unfinished with
  | nil => simp [clustersAfter]
  | cons character rest inductionHypothesis =>
    rw [clustersAfter]
    split
    · simp [inductionHypothesis]
    · simp [inductionHypothesis]

/-- The clusters of a text make up the text. -/
@[simp]
theorem flatten_clusters (text : List Char) :
    (clusters text).flatten = text := by
  cases text with
  | nil => rfl
  | cons character rest => simp [clusters, flatten_clustersAfter]

end Bhasha.Text
