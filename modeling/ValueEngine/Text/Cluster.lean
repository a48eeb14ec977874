import ValueEngine.Text.CharSet
import ValueEngine.Text.Conjunct
import ValueEngine.Text.Mark
import ValueEngine.Text.Pictograph

/-! Clusters: the pieces of a text that a reader takes for one character, such as a
letter with its accents, a syllable of Hangul, a flag or a group of pictographs. A
text is cut between two characters unless a rule joins them, and cutting loses
nothing. -/

namespace ValueEngine.Text

/-- What a character does at the edges of a cluster. -/
inductive Role
  | control
  | extending
  | joiner
  | spacing
  /-- A sign that stands before the character it belongs to. -/
  | leading
  /-- One of the two letters that make a flag. -/
  | flagLetter
  /-- Parts of a Hangul syllable. -/
  | initial
  | medial
  | final
  /-- A Hangul syllable without a final part. -/
  | openSyllable
  | closedSyllable
  | pictograph
  /-- A consonant that a link may join to another. -/
  | consonant
  | plain
  deriving DecidableEq, Repr

def controls : List Nat :=
  [0x0, 0x20, 0x7F, 0xA0, 0xAD, 0xAE, 0x61C, 0x61D, 0x180E, 0x180F, 0x200B, 0x200C, 0x200E, 0x2010,
   0x2028, 0x202F, 0x2060, 0x2070, 0xFEFF, 0xFF00, 0xFFF0, 0xFFFC, 0x13430, 0x13440, 0x1BCA0,
   0x1BCA4, 0x1D173, 0x1D17B, 0xE0000, 0xE0020, 0xE0080, 0xE0100, 0xE01F0, 0xE1000]

def leadingSigns : List Nat :=
  [0x600, 0x606, 0x6DD, 0x6DE, 0x70F, 0x710, 0x890, 0x892, 0x8E2, 0x8E3, 0xD4E, 0xD4F, 0x110BD,
   0x110BE, 0x110CD, 0x110CE, 0x111C2, 0x111C4, 0x113D1, 0x113D2, 0x1193F, 0x11940, 0x11941,
   0x11942, 0x11A84, 0x11A8A, 0x11D46, 0x11D47, 0x11F02, 0x11F03]

/-- The part that a code point plays in a Hangul syllable, or in a syllable written
alike. A composed syllable is open when its number is a multiple of 28. -/
def syllableRole? (n : Nat) : Option Role :=
  if (0x1100 ≤ n ∧ n < 0x1160) ∨ (0xA960 ≤ n ∧ n < 0xA97D) then some .initial
  else if (0x1160 ≤ n ∧ n < 0x11A8) ∨ (0xD7B0 ≤ n ∧ n < 0xD7C7) ∨ n = 0x16D63 ∨
      (0x16D67 ≤ n ∧ n < 0x16D6B) then some .medial
  else if (0x11A8 ≤ n ∧ n < 0x1200) ∨ (0xD7CB ≤ n ∧ n < 0xD7FC) then some .final
  else if 0xAC00 ≤ n ∧ n < 0xD7A4 then
    if (n - 0xAC00) % 28 = 0 then some .openSyllable else some .closedSyllable
  else none

def role (c : Char) : Role :=
  let n := c.toNat
  if 0x20 ≤ n ∧ n < 0x7F then .plain
  else if n = 0x200D then .joiner
  else if within controls c then .control
  else if within Mark.extending c then .extending
  else if within Mark.spacing c then .spacing
  else if within leadingSigns c then .leading
  else if within Pictograph.boundaries c then .pictograph
  else if within Conjunct.consonants c then .consonant
  else if 0x1F1E6 ≤ n ∧ n < 0x1F200 then .flagLetter
  else (syllableRole? n).getD .plain

/-- Roles that belong to any character before them. -/
def Role.attaches (r : Role) : Bool := r = .extending || r = .joiner || r = .spacing

/-- Roles that stand next to each other in one syllable. -/
def Role.syllable : Role → Role → Bool
  | .initial, r => r = .initial || r = .medial || r = .openSyllable || r = .closedSyllable
  | .medial, r => r = .medial || r = .final
  | .openSyllable, r => r = .medial || r = .final
  | .final, r => r = .final
  | .closedSyllable, r => r = .final
  | _, _ => false

/-- Characters that may stand between the consonants of a conjunct: joiners and extending
marks, the mark that keeps letters apart aside. -/
def bridges (c : Char) : Bool :=
  role c = .joiner || role c = .extending && c != '\u200C'

/-- Whether a cluster, given last character first, ends in a consonant and a link, so that
a consonant after it continues a conjunct. -/
def endsLinked (cluster : List Char) : Bool :=
  (cluster.takeWhile bridges).any (Conjunct.links.contains ·.toNat) &&
    (cluster.dropWhile bridges).head?.any (role · = .consonant)

/-- Whether a cluster, given last character first, ends in a pictograph with its marks and
a joiner, so that a pictograph after it continues a group. -/
def endsJoined : List Char → Bool
  | [] => false
  | last :: earlier =>
    role last = .joiner &&
      (earlier.dropWhile (role · = .extending)).head?.any (role · = .pictograph)

/-- Whether a cluster, given last character first, ends in half a flag. -/
def endsHalved (cluster : List Char) : Bool :=
  (cluster.takeWhile (role · = .flagLetter)).length % 2 = 1

/-- Whether a character belongs to the cluster before it, which is given last character
first. Nothing joins a control but a line feed after a carriage return. -/
def joins (cluster : List Char) (c : Char) : Bool :=
  match cluster with
  | [] => false
  | last :: _ =>
    if role last = .control ∨ role c = .control then last = '\r' && c = '\n'
    else
      (role c).attaches || role last = .leading || (role last).syllable (role c) ||
      role c = .consonant && endsLinked cluster ||
      role c = .pictograph && endsJoined cluster ||
      role c = .flagLetter && endsHalved cluster

/-- The clusters of an unfinished one, given last character first, and the text after it. -/
def clustersAfter (cluster : List Char) : List Char → List (List Char)
  | [] => [cluster.reverse]
  | c :: cs =>
    if joins cluster c then clustersAfter (c :: cluster) cs
    else cluster.reverse :: clustersAfter [c] cs

def clusters : List Char → List (List Char)
  | [] => []
  | c :: cs => clustersAfter [c] cs

theorem flatten_clustersAfter (cluster cs : List Char) :
    (clustersAfter cluster cs).flatten = cluster.reverse ++ cs := by
  induction cs generalizing cluster with
  | nil => simp [clustersAfter]
  | cons c cs ih =>
    rw [clustersAfter]
    split <;> simp [ih]

@[simp] theorem flatten_clusters (cs : List Char) : (clusters cs).flatten = cs := by
  cases cs with
  | nil => rfl
  | cons c cs => simp [clusters, flatten_clustersAfter]

end ValueEngine.Text
