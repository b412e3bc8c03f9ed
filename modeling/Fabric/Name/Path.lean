import Fabric.Name.Interner

/-!
# Hierarchical names

A resource is named by a list of components, such as `3`, `4`, `ALM0_FF2`, written with a
delimiter between them. The empty text is the list with no components; every other text is
cut at each delimiter, so a text with `n` delimiters has `n + 1` components, some of them
possibly empty.

## Main results

* `join_split` — cutting a text and joining the pieces gives the text back;
* `split_join` — joining pieces without delimiters and cutting again gives the pieces back.
-/

namespace Fabric

/-- A hierarchical name: its components, outermost first. -/
abbrev Path := List Ident

namespace Path

/-! ### Cutting and joining text -/

/-- The pieces of a text between its delimiters; there is always at least one. -/
def split (d : Char) : List Char → List (List Char)
  | [] => [[]]
  | c :: rest =>
    if c = d then [] :: split d rest
    else match split d rest with
      | [] => [[c]]
      | piece :: pieces => (c :: piece) :: pieces

/-- Pieces with a delimiter between each two. -/
def join (d : Char) : List (List Char) → List Char
  | [] => []
  | [piece] => piece
  | piece :: pieces => piece ++ d :: join d pieces

/-- Splitting always leaves a piece. -/
theorem split_ne_nil (d : Char) (cs : List Char) : split d cs ≠ [] := by
  cases cs with
  | nil => simp [split]
  | cons c rest =>
    simp only [split]
    split
    · simp
    · split <;> simp

/-- A piece in front of others is separated from them. -/
theorem join_cons_of_ne_nil (d : Char) (piece : List Char) {pieces : List (List Char)}
    (h : pieces ≠ []) : join d (piece :: pieces) = piece ++ d :: join d pieces := by
  cases pieces with
  | nil => exact absurd rfl h
  | cons _ _ => rfl

/-- Cutting a text and joining the pieces gives the text back. -/
theorem join_split (d : Char) (cs : List Char) : join d (split d cs) = cs := by
  induction cs with
  | nil => rfl
  | cons c rest ih =>
    by_cases hc : c = d
    · simp [split, hc, join_cons_of_ne_nil d [] (split_ne_nil d rest), ih]
    · simp only [split, hc, if_false]
      cases hs : split d rest with
      | nil => exact absurd hs (split_ne_nil d rest)
      | cons piece pieces =>
        rw [hs] at ih
        cases pieces with
        | nil => simpa [join] using ih
        | cons _ _ => simpa [join] using ih

/-- Joining pieces without delimiters and cutting again gives the pieces back. -/
theorem split_join (d : Char) {pieces : List (List Char)} (hne : pieces ≠ [])
    (h : ∀ piece ∈ pieces, d ∉ piece) : split d (join d pieces) = pieces := by
  have single : ∀ piece : List Char, d ∉ piece → split d piece = [piece] := by
    intro piece
    induction piece with
    | nil => simp [split]
    | cons c rest ih =>
      intro hp
      simp only [List.mem_cons, not_or] at hp
      simp [split, Ne.symm hp.1, ih hp.2]
  have more : ∀ piece rest : List Char, d ∉ piece →
      split d (piece ++ d :: rest) = piece :: split d rest := by
    intro piece rest
    induction piece with
    | nil => simp [split]
    | cons c piece ih =>
      intro hp
      simp only [List.mem_cons, not_or] at hp
      simp [split, Ne.symm hp.1, ih hp.2]
  induction pieces with
  | nil => exact absurd rfl hne
  | cons piece pieces ih =>
    have hpiece := h piece (by simp)
    cases pieces with
    | nil => simpa [join] using single piece hpiece
    | cons next rest =>
      rw [join_cons_of_ne_nil d piece (by simp), more _ _ hpiece,
        ih (by simp) fun q hq => h q (List.mem_cons_of_mem _ hq)]

/-! ### Names as text -/

/-- Reads a name, putting its components into use. -/
def parse (t : Interner) (s : String) (d : Char) : Path × Interner :=
  if s.isEmpty then ([], t) else t.internAll ((split d s.toList).map String.ofList)

/-- Writes a name. -/
def display (t : Interner) (p : Path) (d : Char) : String :=
  String.ofList (join d (p.map fun i => (t.name i).toList))

/-- Writes a name, provided that all of its components are in use. -/
def display? (t : Interner) (p : Path) (d : Char) : Option String :=
  (p.mapM t.name?).map fun names => String.ofList (join d (names.map String.toList))

end Path

end Fabric
