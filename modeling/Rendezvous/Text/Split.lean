/-!
# Splitting text

A text is split at every place where a separator stands, from left to right and without overlap.

## Main definitions

* `Text.splitOn`: the pieces between the separators.

## Main results

* `Text.intercalate_pieces`: the pieces with the separator between them make up the text.
-/

namespace Rendezvous.Text

/-- The pieces of a text after the first `skip` characters. The beginning of the first piece is
kept in reverse. -/
def piecesFrom (sep : List Char) : List Char → (skip : Nat) → (piece : List Char) →
    List (List Char)
  | [], _, piece => [piece.reverse]
  | _ :: rest, skip + 1, piece => piecesFrom sep rest skip piece
  | c :: rest, 0, piece =>
    if sep.isPrefixOf (c :: rest) then
      piece.reverse :: piecesFrom sep rest (sep.length - 1) []
    else piecesFrom sep rest 0 (c :: piece)

/-- The pieces of a text between separators. -/
def pieces (sep cs : List Char) : List (List Char) :=
  piecesFrom sep cs 0 []

/-- The pieces of a text between separators. -/
def splitOn (sep s : String) : List String :=
  (pieces sep.toList s.toList).map String.ofList

theorem piecesFrom_ne_nil (sep cs : List Char) (skip : Nat) (piece : List Char) :
    piecesFrom sep cs skip piece ≠ [] := by
  fun_induction piecesFrom sep cs skip piece with
  | case1 => simp
  | case2 _ _ _ _ ih => exact ih
  | case3 => simp
  | case4 _ _ _ _ ih => exact ih

theorem intercalate_cons (sep a : List Char) {l : List (List Char)} (h : l ≠ []) :
    List.intercalate sep (a :: l) = a ++ sep ++ List.intercalate sep l := by
  cases l with
  | nil => exact absurd rfl h
  | cons b l => simp [List.intercalate, List.intersperse]

theorem intercalate_piecesFrom (sep cs : List Char) (skip : Nat) (piece : List Char)
    (hs : sep ≠ []) (hk : skip ≤ cs.length) :
    List.intercalate sep (piecesFrom sep cs skip piece) = piece.reverse ++ cs.drop skip := by
  fun_induction piecesFrom sep cs skip piece with
  | case1 skip piece => simp [List.intercalate, List.intersperse]
  | case2 c rest skip piece ih => simpa using ih (by simpa using hk)
  | case3 c rest piece h ih =>
    obtain ⟨tail, htail⟩ := List.isPrefixOf_iff_prefix.mp h
    have hlen := congrArg List.length htail
    simp only [List.length_append, List.length_cons] at hlen
    have hpos := List.length_pos_iff.mpr hs
    have hrest : rest.drop (sep.length - 1) = tail := by
      have : (c :: rest).drop sep.length = tail := by rw [← htail]; simp
      rw [← this, show sep.length = (sep.length - 1) + 1 by omega]
      simp
    rw [intercalate_cons _ _ (piecesFrom_ne_nil _ _ _ _), ih (by omega), hrest]
    simp [← htail]
  | case4 c rest piece h ih => simpa using ih (by omega)

/-- The pieces with the separator between them make up the text. -/
theorem intercalate_pieces (sep cs : List Char) (hs : sep ≠ []) :
    List.intercalate sep (pieces sep cs) = cs := by
  simpa [pieces] using intercalate_piecesFrom sep cs 0 [] hs (by simp)

example : splitOn "__" "a___b" = ["a", "_b"] ∧ splitOn "/" "" = [""] := by decide

end Rendezvous.Text
