import HandleScript.Text.ClusterClass

/-!
# Clusters

A text cut into user-perceived characters: extended grapheme clusters. Between two
characters there is a boundary unless a rule binds them together. Three rules look at more
than the two characters: a joiner binds two pictographs, a linker binds two consonants,
and halves of flags go together in pairs. A `Tie` keeps what they need to know of the
cluster so far.
-/

namespace HandleScript.Text

/-- How the cluster so far can bind a further character over the marks at its end. -/
inductive Tie where
  | none
  /-- A pictograph and marks. -/
  | picture
  /-- A pictograph, marks and a joiner. -/
  | joinedPicture
  /-- A consonant and marks. -/
  | consonant
  /-- A consonant and marks with a linker among them. -/
  | linkedConsonant
  /-- The first half of a flag. -/
  | halfFlag
deriving DecidableEq, Repr

namespace Tie

/-- The tie of a cluster that starts with a character of the given class. -/
def start : ClusterClass → Tie
  | .picture => picture
  | .consonant => consonant
  | .indicator => halfFlag
  | _ => none

/-- The tie after a character of the given class has joined the cluster. -/
def next : Tie → ClusterClass → Tie
  | picture, .extender => picture
  | picture, .linker => picture
  | picture, .nonJoiner => picture
  | picture, .joiner => joinedPicture
  | consonant, .extender => consonant
  | consonant, .joiner => consonant
  | consonant, .linker => linkedConsonant
  | linkedConsonant, .extender => linkedConsonant
  | linkedConsonant, .joiner => linkedConsonant
  | linkedConsonant, .linker => linkedConsonant
  | halfFlag, .indicator => none
  | _, c => start c

/-- Whether the tie binds a character of the given class. -/
def binds : Tie → ClusterClass → Bool
  | joinedPicture, .picture => true
  | linkedConsonant, .consonant => true
  | halfFlag, .indicator => true
  | _, _ => false

end Tie

namespace ClusterClass

/-- Whether a boundary stands at each side of a character of this class. -/
def standsAlone : ClusterClass → Bool
  | control => true
  | carriageReturn => true
  | lineFeed => true
  | _ => false

/-- Whether a character of this class goes with any character before it. -/
def followsAny : ClusterClass → Bool
  | extender => true
  | linker => true
  | nonJoiner => true
  | joiner => true
  | spacing => true
  | _ => false

/-- Whether two neighbours belong to one syllable. -/
def inSyllable : ClusterClass → ClusterClass → Bool
  | leading, leading => true
  | leading, vowel => true
  | leading, openSyllable => true
  | leading, closedSyllable => true
  | openSyllable, vowel => true
  | openSyllable, trailing => true
  | vowel, vowel => true
  | vowel, trailing => true
  | closedSyllable, trailing => true
  | trailing, trailing => true
  | _, _ => false

/-- Whether two neighbours belong to one cluster, where the cluster so far has the given
tie. -/
def joins (tie : Tie) (before after : ClusterClass) : Bool :=
  if before = carriageReturn && after = lineFeed then true
  else if before.standsAlone || after.standsAlone then false
  else inSyllable before after || after.followsAny ||
    before = prepended || tie.binds after

end ClusterClass

/-- The cluster that has begun and the clusters after it. `begun` holds its characters,
latest first; `last` is the class of the latest one. -/
def clustersFrom (begun : List Char) (last : ClusterClass) (tie : Tie) :
    List Char → List (List Char)
  | [] => [begun.reverse]
  | c :: cs =>
    let here := ClusterClass.ofChar c
    if ClusterClass.joins tie last here then
      clustersFrom (c :: begun) here (tie.next here) cs
    else begun.reverse :: clustersFrom [c] here (.start here) cs

/-- The clusters of a text. -/
def clusters : List Char → List (List Char)
  | [] => []
  | c :: cs =>
    let first := ClusterClass.ofChar c
    clustersFrom [c] first (.start first) cs

end HandleScript.Text
