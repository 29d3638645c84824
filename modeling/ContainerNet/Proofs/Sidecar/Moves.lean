/-!
# Moves one after the other

Lanes and crews move by a function that makes a move if it can be made now, and says what can be
seen of it. `moveAll` makes the moves of a list, with everything that is seen on the way.

If one of the moves cannot be made then the list cannot, so `moveAll` never stops halfway. A list of
moves that can be made is thus evidence that a state is reached and that something is seen, and such
lists are put one behind the other (`moveAll_append`).
-/

namespace ContainerNet.Sidecar

variable {σ μ ε : Type}

/-- Makes moves one after the other, if all of them can be made. -/
def moveAll (next : σ → μ → Option (σ × List ε)) : List μ → σ → Option (σ × List ε)
  | [], s => some (s, [])
  | m :: rest, s =>
    (next s m).bind fun (s, seen) ↦ (moveAll next rest s).map fun (s, more) ↦ (s, seen ++ more)

variable {next : σ → μ → Option (σ × List ε)} {moves more : List μ} {s s' s'' : σ}
  {seen seen' : List ε}

theorem moveAll_cons_eq_some_iff {m : μ} :
    moveAll next (m :: moves) s = some (s', seen) ↔
      ∃ s₁ first rest, next s m = some (s₁, first) ∧ moveAll next moves s₁ = some (s', rest) ∧
        seen = first ++ rest := by
  simp only [moveAll, Option.bind_eq_some_iff, Option.map_eq_some_iff, Prod.exists, Prod.mk.injEq]
  constructor
  · rintro ⟨s₁, first, hfirst, s₂, rest, hrest, rfl, rfl⟩
    exact ⟨s₁, first, rest, hfirst, hrest, rfl⟩
  · rintro ⟨s₁, first, rest, hfirst, hrest, rfl⟩
    exact ⟨s₁, first, hfirst, s', rest, hrest, rfl, rfl⟩

theorem moveAll_single {m : μ} (h : next s m = some (s', seen)) :
    moveAll next [m] s = some (s', seen) :=
  moveAll_cons_eq_some_iff.mpr ⟨s', seen, [], h, rfl, (List.append_nil seen).symm⟩

theorem moveAll_append (h : moveAll next moves s = some (s', seen))
    (h' : moveAll next more s' = some (s'', seen')) :
    moveAll next (moves ++ more) s = some (s'', seen ++ seen') := by
  induction moves generalizing s seen with
  | nil =>
    cases h
    exact h'
  | cons m moves ih =>
    obtain ⟨s₁, first, rest, hfirst, hrest, rfl⟩ := moveAll_cons_eq_some_iff.mp h
    rw [List.append_assoc]
    exact moveAll_cons_eq_some_iff.mpr ⟨s₁, first, _, hfirst, ih hrest, rfl⟩

end ContainerNet.Sidecar
