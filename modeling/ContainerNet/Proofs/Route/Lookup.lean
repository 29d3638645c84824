import Mathlib.Tactic.Common
import ContainerNet.Route.Change
import ContainerNet.Proofs.Address.Nesting

/-!
# What a lookup finds

`RouteTable.lookup` keeps the matching routes of the longest prefix. Here is when it finds anything,
that all it finds have one length, and where the routes of a changed table come from: whatever is
in a table after some changes was there before or was put in, and of the routes that are put in the
last one for each place stays.

## Places

The place of a route in a table is its destination with its metric, and a route that is put in takes
the place of all with both (`Route.sameKey_iff`). Between routes without a metric only destinations
count. To put routes in leaves any other route alone unless its place is taken, and a place that is
taken once stays taken (`exists_sameKey_of_mem`), if not by the same route; `mem_changeAll_put_iff`
says both of a whole row of routes.
-/

namespace ContainerNet

namespace Route

variable {r s : Route}

theorem sameKey_iff : r.sameKey s = true ↔ r.destination = s.destination ∧ r.metric = s.metric := by
  rw [sameKey, Bool.and_eq_true, beq_iff_eq, beq_iff_eq]

@[simp] theorem sameKey_self (r : Route) : r.sameKey r = true := sameKey_iff.mpr ⟨rfl, rfl⟩

theorem sameKey_self_ne_false (r : Route) : r.sameKey r ≠ false := by
  rw [sameKey_self]
  exact nofun

theorem sameKey_comm (r s : Route) : r.sameKey s = s.sameKey r := by
  rw [Bool.eq_iff_iff, sameKey_iff, sameKey_iff, eq_comm, eq_comm (a := r.metric)]

theorem sameKey_eq_false_iff (hr : r.metric = none) (hs : s.metric = none) :
    r.sameKey s = false ↔ r.destination ≠ s.destination := by
  simp [sameKey, hr, hs]

end Route

theorem RouteChange.put_ne_remove {r s : Route} : RouteChange.put r ≠ .remove s := by
  simp

namespace RouteTable

variable {t : RouteTable} {a : Address}

/-- A route that matches is found, or hidden by a longer one that is. Each step to a longer route
brings the length closer to its bound. -/
theorem exists_mem_lookup {r : Route} (hr : r ∈ t) (ha : r.destination.contains a = true) :
    ∃ s ∈ t.lookup a, r.destination.length ≤ s.destination.length := by
  by_cases hmax : ∀ s ∈ t, s.destination.contains a = true →
      s.destination.length ≤ r.destination.length
  · exact ⟨r, mem_lookup.mpr ⟨hr, ha, hmax⟩, Nat.le_refl _⟩
  · push Not at hmax
    obtain ⟨s, hs, hsa, hlt⟩ := hmax
    -- lengths are bounded, so that going on to a longer route comes to an end
    have hbound := s.destination.length_le
    obtain ⟨u, hu, hle⟩ := exists_mem_lookup hs hsa
    exact ⟨u, hu, by omega⟩
termination_by 32 - r.destination.length

variable {r s : Route}

theorem lookup_ne_nil_iff :
    t.lookup a ≠ [] ↔ ∃ r ∈ t, r.destination.contains a = true := by
  constructor
  · intro h
    obtain ⟨r, hr⟩ := List.exists_mem_of_ne_nil _ h
    obtain ⟨hmem, ha, -⟩ := mem_lookup.mp hr
    exact ⟨r, hmem, ha⟩
  · rintro ⟨r, hmem, ha⟩
    obtain ⟨s, hs, -⟩ := exists_mem_lookup hmem ha
    exact List.ne_nil_of_mem hs

theorem lookup_eq_nil_iff :
    t.lookup a = [] ↔ ∀ r ∈ t, r.destination.contains a = false := by
  rw [← not_iff_not, ← ne_eq, lookup_ne_nil_iff]
  simp

/-! ## Changed tables -/

variable {changes : List RouteChange}

@[simp] theorem changeAll_nil (t : RouteTable) : t.changeAll [] = t := rfl

@[simp] theorem changeAll_cons (t : RouteTable) (c : RouteChange) (changes : List RouteChange) :
    t.changeAll (c :: changes) = (t.change c).changeAll changes := rfl

theorem changeAll_append (t : RouteTable) (changes changes' : List RouteChange) :
    t.changeAll (changes ++ changes') = (t.changeAll changes).changeAll changes' :=
  List.foldl_append

@[simp] theorem mem_change_put : r ∈ t.change (.put s) ↔ r = s ∨ (r ∈ t ∧ r.sameKey s = false) :=
  mem_replace

@[simp] theorem mem_change_remove : r ∈ t.change (.remove s) ↔ r ∈ t ∧ r ≠ s := mem_delete

/-- Whatever was not put in was there before, and its place was not taken. -/
theorem put_or_of_mem_changeAll (h : r ∈ t.changeAll changes) :
    .put r ∈ changes ∨ (r ∈ t ∧ ∀ s, .put s ∈ changes → r.sameKey s = false) := by
  induction changes generalizing t with
  | nil => exact .inr ⟨h, fun s hs ↦ absurd hs List.not_mem_nil⟩
  | cons c rest ih =>
    rcases ih h with hput | ⟨hr, hrest⟩
    · exact .inl (List.mem_cons_of_mem _ hput)
    cases c with
    | put q =>
      rcases mem_change_put.mp hr with rfl | ⟨hr, hkey⟩
      · exact .inl List.mem_cons_self
      · refine .inr ⟨hr, fun s hs ↦ ?_⟩
        rcases List.mem_cons.mp hs with hs | hs
        · cases hs
          exact hkey
        · exact hrest s hs
    | remove q =>
      refine .inr ⟨(mem_change_remove.mp hr).1, fun s hs ↦ hrest s ?_⟩
      exact (List.mem_cons.mp hs).resolve_left RouteChange.put_ne_remove

theorem mem_or_put_of_mem_changeAll (h : r ∈ t.changeAll changes) :
    r ∈ t ∨ .put r ∈ changes :=
  (put_or_of_mem_changeAll h).symm.imp_left And.left

theorem not_mem_changeAll_of_remove (hremove : .remove r ∈ changes) (hput : .put r ∉ changes) :
    r ∉ t.changeAll changes := by
  induction changes generalizing t with
  | nil => exact absurd hremove List.not_mem_nil
  | cons c changes ih =>
    have hrest : .put r ∉ changes := fun h ↦ hput (List.mem_cons_of_mem _ h)
    rcases List.mem_cons.mp hremove with rfl | hremove
    · rw [changeAll_cons]
      intro hr
      rcases mem_or_put_of_mem_changeAll hr with hmem | hmem
      · exact (mem_change_remove.mp hmem).2 rfl
      · exact hrest hmem
    · exact ih hremove hrest

theorem mem_or_of_mem_changeAll_put {routes : List Route} (h : r ∈ t.changeAll (routes.map .put)) :
    r ∈ routes ∨ (r ∈ t ∧ ∀ s ∈ routes, r.sameKey s = false) := by
  simpa using put_or_of_mem_changeAll h

/-- What a table holds once some routes were put in: what they leave of an empty table, and the
routes of before whose place is not taken. -/
theorem mem_changeAll_put_iff {routes : List Route} :
    r ∈ t.changeAll (routes.map .put) ↔
      r ∈ changeAll [] (routes.map .put) ∨ (r ∈ t ∧ ∀ s ∈ routes, r.sameKey s = false) := by
  induction routes generalizing t with
  | nil => simp
  | cons q routes ih =>
    rw [List.map_cons, changeAll_cons, changeAll_cons, ih, ih (t := change [] (.put q)),
      mem_change_put, mem_change_put, List.forall_mem_cons]
    have hnil : r ∉ ([] : RouteTable) := List.not_mem_nil
    tauto

theorem mem_changeAll_remove {routes : List Route} :
    r ∈ t.changeAll (routes.map .remove) ↔ r ∈ t ∧ r ∉ routes := by
  induction routes generalizing t with
  | nil => simp
  | cons q routes ih =>
    rw [List.map_cons, changeAll_cons, ih, mem_change_remove, List.mem_cons, not_or, and_assoc]

/-- The place of a route does not become free when routes are put in. -/
theorem exists_sameKey_of_mem {routes : List Route} (hr : r ∈ t) :
    ∃ s ∈ t.changeAll (routes.map .put), r.sameKey s = true := by
  induction routes generalizing t r with
  | nil => exact ⟨r, hr, Route.sameKey_self r⟩
  | cons q routes ih =>
    by_cases hkey : r.sameKey q = true
    · -- the new route takes the place, and then stands for it in what follows
      obtain ⟨s, hs, hqs⟩ := ih (mem_change_put.mpr (.inl rfl) : q ∈ t.change (.put q))
      obtain ⟨hrdest, hrmetric⟩ := Route.sameKey_iff.mp hkey
      obtain ⟨hqdest, hqmetric⟩ := Route.sameKey_iff.mp hqs
      exact ⟨s, hs, Route.sameKey_iff.mpr ⟨hrdest.trans hqdest, hrmetric.trans hqmetric⟩⟩
    · rw [Bool.not_eq_true] at hkey
      exact ih (mem_change_put.mpr (.inr ⟨hr, hkey⟩))

theorem exists_sameKey_of_put {routes : List Route} (hr : r ∈ routes) :
    ∃ s ∈ t.changeAll (routes.map .put), r.sameKey s = true := by
  induction routes generalizing t with
  | nil => exact absurd hr List.not_mem_nil
  | cons q routes ih =>
    rw [List.map_cons, changeAll_cons]
    rcases List.mem_cons.mp hr with rfl | hr
    · exact exists_sameKey_of_mem (mem_change_put.mpr (.inl rfl))
    · exact ih hr

/-- Of routes for different places all that are put in stay, and of the others those whose place is
not taken. -/
theorem mem_changeAll_put {routes : List Route}
    (hkeys : routes.Pairwise fun r s ↦ r.sameKey s = false) :
    r ∈ t.changeAll (routes.map .put) ↔
      r ∈ routes ∨ (r ∈ t ∧ ∀ s ∈ routes, r.sameKey s = false) := by
  induction routes generalizing t with
  | nil => simp
  | cons s routes ih =>
    obtain ⟨hs, hrest⟩ := List.pairwise_cons.mp hkeys
    rw [List.map_cons, changeAll_cons, ih hrest, mem_change_put, List.mem_cons,
      List.forall_mem_cons]
    constructor
    · rintro (hr | ⟨rfl | ⟨hr, hkey⟩, hnone⟩)
      · exact .inl (.inr hr)
      · exact .inl (.inl rfl)
      · exact .inr ⟨hr, hkey, hnone⟩
    · rintro ((rfl | hr) | ⟨hr, hkey, hnone⟩)
      · exact .inr ⟨.inl rfl, hs⟩
      · exact .inl hr
      · exact .inr ⟨.inr ⟨hr, hkey⟩, hnone⟩

end RouteTable

end ContainerNet
