/- GID: MiniRedis/Python/Lines
   generality: G
   digest: Lines that end in a line feed are told apart again when a text is read. -/

import Mathlib.Data.List.Basic
import MiniRedis.Python.Text

set_option autoImplicit false
set_option relaxedAutoImplicit false

namespace MiniRedis.Python

/-- What reading a text file makes of other line ends. -/
def universalNewlines : List Char → List Char
  | [] => []
  | '\r' :: '\n' :: cs => '\n' :: universalNewlines cs
  | '\r' :: cs => '\n' :: universalNewlines cs
  | c :: cs => c :: universalNewlines cs

/-- The line boundaries of `str.splitlines`. -/
def isLineBoundary (c : Char) : Bool :=
  decide (c.toNat ∈ [0x0A, 0x0B, 0x0C, 0x0D, 0x1C, 0x1D, 0x1E, 0x85, 0x2028, 0x2029])

/-- `str.splitlines`; a last line need not be ended. -/
def splitlines : List Char → List (List Char)
  | [] => []
  | '\r' :: '\n' :: cs => [] :: splitlines cs
  | c :: cs =>
    if isLineBoundary c then [] :: splitlines cs
    else
      match splitlines cs with
      | [] => [[c]]
      | line :: lines => (c :: line) :: lines

theorem universalNewlines_eq {cs : List Char} (none : '\r' ∉ cs) : universalNewlines cs = cs := by
  induction cs with
  | nil => rfl
  | cons c cs ih =>
    rw [List.mem_cons, not_or] at none
    rw [universalNewlines, ih none.2]
    · rintro cs rfl
      exact (none.1 rfl).elim
    · rintro rfl
      exact (none.1 rfl).elim

private theorem splitlines_cons {c : Char} (inner : isLineBoundary c = false) (cs : List Char) :
    splitlines (c :: cs) =
      match splitlines cs with
      | [] => [[c]]
      | line :: lines => (c :: line) :: lines := by
  rw [splitlines, if_neg (by rw [inner]; exact Bool.false_ne_true)]
  rintro cs rfl
  exact absurd inner (by decide)

theorem splitlines_append {line : List Char} (inner : ∀ c ∈ line, isLineBoundary c = false)
    (rest : List Char) : splitlines (line ++ '\n' :: rest) = line :: splitlines rest := by
  induction line with
  | nil => rfl
  | cons c line ih =>
    rw [List.forall_mem_cons] at inner
    rw [List.cons_append, splitlines_cons inner.1, ih inner.2]

theorem splitlines_append_crlf {line : List Char} (inner : ∀ c ∈ line, isLineBoundary c = false)
    (rest : List Char) : splitlines (line ++ '\r' :: '\n' :: rest) = line :: splitlines rest := by
  induction line with
  | nil => rfl
  | cons c line ih =>
    rw [List.forall_mem_cons] at inner
    rw [List.cons_append, splitlines_cons inner.1, ih inner.2]

theorem splitlines_last {line : List Char} (inner : ∀ c ∈ line, isLineBoundary c = false)
    (some_text : line ≠ []) : splitlines line = [line] := by
  induction line with
  | nil => exact (some_text rfl).elim
  | cons c line ih =>
    rw [List.forall_mem_cons] at inner
    rw [splitlines_cons inner.1]
    cases line with
    | nil => rfl
    | cons d line => rw [ih inner.2 (List.cons_ne_nil d line)]

/-- A text that is made of ended lines. -/
def linesText (lines : List (List Char)) : List Char := lines.flatMap (· ++ ['\n'])

theorem linesText_append (lines lines' : List (List Char)) :
    linesText (lines ++ lines') = linesText lines ++ linesText lines' := List.flatMap_append

theorem splitlines_linesText {lines : List (List Char)}
    (inner : ∀ line ∈ lines, ∀ c ∈ line, isLineBoundary c = false) :
    splitlines (linesText lines) = lines := by
  induction lines with
  | nil => rfl
  | cons line lines ih =>
    rw [List.forall_mem_cons] at inner
    have split : linesText (line :: lines) = line ++ '\n' :: linesText lines := by
      rw [linesText, List.flatMap_cons, List.append_assoc]
      rfl
    rw [split, splitlines_append inner.1, ih inner.2]

end MiniRedis.Python
