/-!
# Close texts

How much two texts have in common: the longest block of characters that occurs in both, and
whatever the parts before it and the parts after it have in common. A text is close to another one
if at least three fifths of the characters of both belong to common blocks.

## Main definitions

* `Text.common`: the number of characters in common blocks.
* `Text.isClose`: whether two texts are close.
* `Text.closest`: the few closest of the texts that are close to a word, closest first.

## Main results

* `Text.longestBlock_end_le`: a common block lies within the text.
-/

namespace Rendezvous.Text

/-- The length of the longest beginning that two texts share. -/
def sharedStart : List Char → List Char → Nat
  | a :: as, b :: bs => if a = b then sharedStart as bs + 1 else 0
  | _, _ => 0

/-- A block of characters that occurs in two texts. -/
structure Block where
  /-- Where the block begins in the first text. -/
  start : Nat := 0
  /-- Where the block begins in the second text. -/
  other : Nat := 0
  length : Nat := 0
  deriving DecidableEq, Repr

/-- The longest common block that begins at the front of the first text and at or after a place of
the second, whose rest from there is given. Of equally long blocks the first one counts. -/
def blockAt (as : List Char) (start : Nat) : List Char → (other : Nat) → Block → Block
  | [], _, best => best
  | b :: bs, other, best =>
    let length := sharedStart as (b :: bs)
    blockAt as start bs (other + 1) (if best.length < length then ⟨start, other, length⟩ else best)

/-- The longest common block that begins at or after a place of the first text, whose rest from
there is given. Of equally long blocks the first one counts. -/
def blockFrom (bs : List Char) : List Char → (start : Nat) → Block → Block
  | [], _, best => best
  | a :: as, start, best => blockFrom bs as (start + 1) (blockAt (a :: as) start bs 0 best)

/-- The longest common block of two texts. -/
def longestBlock (as bs : List Char) : Block :=
  blockFrom bs as 0 {}

theorem sharedStart_le (as bs : List Char) : sharedStart as bs ≤ as.length := by
  fun_induction sharedStart as bs <;> simp_all

theorem blockAt_end_le (as bs : List Char) (start other : Nat) (best : Block)
    (h : best.start + best.length ≤ start + as.length) :
    (blockAt as start bs other best).start + (blockAt as start bs other best).length ≤
      start + as.length := by
  induction bs generalizing other best with
  | nil => exact h
  | cons b bs ih =>
    apply ih
    split
    · simpa using sharedStart_le as (b :: bs)
    · exact h

theorem blockFrom_end_le (as bs : List Char) (start : Nat) (best : Block)
    (h : best.start + best.length ≤ start + as.length) :
    (blockFrom bs as start best).start + (blockFrom bs as start best).length ≤
      start + as.length := by
  induction as generalizing start best with
  | nil => exact h
  | cons a as ih =>
    have := ih (start + 1) _ (by
      have := blockAt_end_le (a :: as) bs start 0 best h
      simpa [Nat.add_assoc, Nat.add_comm 1] using this)
    simpa [blockFrom, Nat.add_assoc, Nat.add_comm 1] using this

/-- A common block lies within the first text. -/
theorem longestBlock_end_le (as bs : List Char) :
    (longestBlock as bs).start + (longestBlock as bs).length ≤ as.length := by
  simpa [longestBlock] using blockFrom_end_le as bs 0 {} (by simp)

/-- The number of characters in the common blocks of two texts. -/
def common (as bs : List Char) : Nat :=
  let block := longestBlock as bs
  if _h : block.length = 0 then 0
  else
    block.length + common (as.take block.start) (bs.take block.other) +
      common (as.drop (block.start + block.length)) (bs.drop (block.other + block.length))
termination_by as.length
decreasing_by
  all_goals
    have hlen : (longestBlock as bs).length ≠ 0 := _h
    have := longestBlock_end_le as bs
    simp only [List.length_take, List.length_drop]
    omega

/-- How close a text is to a word: the characters in common blocks, and all characters. -/
def closeness (word text : String) : Nat × Nat :=
  (2 * common text.toList word.toList, text.length + word.length)

/-- Whether a text is close to a word. -/
def isClose (word text : String) : Bool :=
  let (shared, all) := closeness word text
  3 * all ≤ 5 * shared

/-- Whether the first text comes before the second in the order of closeness to a word. Of equally
close texts the greater one comes first. -/
def isCloser (word a b : String) : Bool :=
  let (sharedA, allA) := closeness word a
  let (sharedB, allB) := closeness word b
  if sharedA * allB = sharedB * allA then b ≤ a else sharedB * allA < sharedA * allB

/-- The number of texts that are offered in place of a word. -/
def offered : Nat := 3

/-- The closest of the texts that are close to a word, closest first. -/
def closest (word : String) (texts : List String) : List String :=
  ((texts.filter (isClose word)).mergeSort (isCloser word)).take offered

example : closest "--setting" ["--settings", "--format"] = ["--settings"] := by decide +kernel
example : closest "simulat" ["validate", "simulate"] = ["simulate"] := by decide +kernel

end Rendezvous.Text
