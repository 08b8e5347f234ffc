import Mathlib.Data.List.Basic

/-!
# Clauses

A file can be divided into clauses: a heading and the entries that follow it, up to the next heading.
`clausesOf` reads the clauses from the lines of a file, `clauseLines` lists the lines of clauses, and
the two are inverse to each other on the files that begin with a heading (`clausesOf_eq_some_iff`).
-/

namespace Library

variable {α β : Type*}

/-- The lines of clauses: each heading, followed by its entries. -/
def clauseLines (clauses : List (α × List β)) : List (α ⊕ β) :=
  clauses.flatMap fun clause => .inl clause.1 :: clause.2.map .inr

/-- The entries before the first heading, and the clauses. -/
def splitClauses : List (α ⊕ β) → List β × List (α × List β)
  | [] => ([], [])
  | .inl heading :: lines => ([], (heading, (splitClauses lines).1) :: (splitClauses lines).2)
  | .inr entry :: lines => (entry :: (splitClauses lines).1, (splitClauses lines).2)

/-- The clauses of a file, if there is nothing before the first heading. -/
def clausesOf (lines : List (α ⊕ β)) : Option (List (α × List β)) :=
  match splitClauses lines with
  | ([], clauses) => some clauses
  | _ => none

/-- Nothing is lost or added. -/
theorem append_splitClauses (lines : List (α ⊕ β)) :
    (splitClauses lines).1.map .inr ++ clauseLines (splitClauses lines).2 = lines := by
  induction lines with
  | nil => rfl
  | cons line lines ih =>
    cases line with
    | inl heading => simpa [splitClauses, clauseLines] using ih
    | inr entry => simpa [splitClauses] using ih

/-- Entries in front of clauses are told apart from them. -/
theorem splitClauses_append (entries : List β) (lines : List (α ⊕ β)) :
    splitClauses (entries.map .inr ++ lines) =
      (entries ++ (splitClauses lines).1, (splitClauses lines).2) := by
  induction entries with
  | nil => rfl
  | cons entry entries ih => simp [splitClauses, ih]

/-- Clauses are read back from their lines. -/
theorem splitClauses_clauseLines (clauses : List (α × List β)) :
    splitClauses (clauseLines clauses) = ([], clauses) := by
  induction clauses with
  | nil => rfl
  | cons clause clauses ih =>
    have hlines : clauseLines (clause :: clauses) =
        .inl clause.1 :: (clause.2.map .inr ++ clauseLines clauses) := by
      simp [clauseLines]
    simp [hlines, splitClauses, splitClauses_append, ih]

/-- Reading clauses is inverse to listing their lines. -/
theorem clausesOf_eq_some_iff {lines : List (α ⊕ β)} {clauses : List (α × List β)} :
    clausesOf lines = some clauses ↔ lines = clauseLines clauses := by
  constructor
  · intro h
    unfold clausesOf at h
    split at h
    · rename_i read hsplit
      obtain rfl : read = clauses := Option.some.inj h
      have happend := append_splitClauses lines
      rw [hsplit] at happend
      exact happend.symm
    · cases h
  · rintro rfl
    simp [clausesOf, splitClauses_clauseLines]

end Library
