import ContainerNet.Plugin.Chain
import ContainerNet.Proofs.Plugin.Stdin

/-!
# Courses of plugin chains

A chain runs the plugins of a list one after the other. How the runs end is not up to the chain, so
it is taken under an arbitrary `Behaviour`: each run ends in a way that may depend on what the
plugin was given and on all runs before it. `chains_course` says which runs a chain makes then, and
with what it ends.

## One loop for both directions

Attaching passes the latest result on in a variable, detaching passes nothing on. Over the runs so
far the two are one loop, `runAll`: it works out each call from the runs before it
(`add_eq_runAll`, `del_eq_runAll`). What a course of that loop is like is shown once, by induction
on the plugins that are left (`isCourse_runAll`).

## Results that no run gave

A plugin reads the object of its entry, and of the results only the latest is put into it. As long
as there is none, a member `prevResult` that the entry has by itself stays where it is, so the
plugin reads a previous result although no plugin ran before it (`first_reads_own_result`).
-/

namespace ContainerNet.Plugin

/-- What was run, in order, and how each run ended. -/
abbrev Runs := List (Call × Outcome (Option Json))

/-- How runs end: what comes of a call after those before it. -/
abbrev Behaviour := Runs → Call → Outcome (Option Json)

/-! ## Results -/

/-- What a run printed, if it succeeded and printed something. -/
def result? (run : Call × Outcome (Option Json)) : Option Json :=
  match run.2 with
  | .ok printed => printed
  | .error _ => none

/-- The last result that was printed so far. -/
def latest (runs : Runs) : Option Json := (runs.filterMap result?).getLast?

theorem latest_concat (runs : Runs) (c : Call) (printed : Option Json) :
    latest (runs ++ [(c, .ok printed)]) = printed.or (latest runs) := by
  rw [latest, List.filterMap_append]
  cases printed with
  | none =>
    have hnone : [(c, (.ok none : Outcome (Option Json)))].filterMap result? = [] := rfl
    rw [hnone, List.append_nil, Option.none_or, latest]
  | some v =>
    have hsome : [(c, (.ok (some v) : Outcome (Option Json)))].filterMap result? = [v] := rfl
    rw [hsome, List.getLast?_concat, Option.some_or]

/-! ## Courses -/

section Course

variable {α : Type} {e : Entry} {entries done rest : List Entry} {call : Entry → Runs → Call}
  {behave : Behaviour} {answer : Runs → Outcome α} {outcome : Outcome α} {runs : Runs}

/-- Plugins are called in their turn, each with what the runs before it lead to, and the runs end as
they do by themselves. -/
def InTurn (entries : List Entry) (call : Entry → Runs → Call) (behave : Behaviour) (runs : Runs) :
    Prop :=
  ∀ before run after, runs = before ++ run :: after →
    ∃ e, entries[before.length]? = some e ∧ run = (call e before, behave before (call e before))

theorem inTurn_nil : InTurn entries call behave [] := by
  intro before run after h
  exact absurd h.symm (List.append_ne_nil_of_right_ne_nil _ (List.cons_ne_nil _ _))

theorem InTurn.concat (h : InTurn entries call behave runs) (he : entries[runs.length]? = some e) :
    InTurn entries call behave (runs ++ [(call e runs, behave runs (call e runs))]) := by
  intro before run after hsplit
  rcases List.eq_nil_or_concat after with rfl | ⟨after, last, rfl⟩
  · obtain ⟨rfl, hrun⟩ := List.append_inj' hsplit rfl
    exact ⟨e, he, (List.singleton_inj.mp hrun).symm⟩
  · -- the last run is none of those that are looked at
    rw [List.concat_eq_append, ← List.cons_append, ← List.append_assoc] at hsplit
    exact h before run after (List.append_inj' hsplit rfl).1

/-- Whether no run has failed. -/
def AllSucceed (runs : Runs) : Prop := ∀ run ∈ runs, ∃ printed, run.2 = .ok printed

theorem AllSucceed.concat (h : AllSucceed runs) (c : Call) (printed : Option Json) :
    AllSucceed (runs ++ [(c, .ok printed)]) := by
  intro run hrun
  rcases List.mem_append.mp hrun with hrun | hrun
  · exact h run hrun
  · exact ⟨printed, congrArg Prod.snd (List.mem_singleton.mp hrun)⟩

theorem AllSucceed.ne_error (h : AllSucceed runs) {c : Call} {fault : Error} :
    (c, .error fault) ∉ runs := by
  intro hmem
  obtain ⟨printed, hok⟩ := h _ hmem
  exact absurd hok nofun

/-- A course over some plugins: they are run in order until a run fails. -/
structure IsCourse (entries : List Entry) (call : Entry → Runs → Call) (behave : Behaviour)
    (answer : Runs → Outcome α) (outcome : Outcome α) (runs : Runs) : Prop where
  inTurn : InTurn entries call behave runs
  /-- A run that fails is the last one, and its error is the outcome. -/
  stops : ∀ before c fault after, runs = before ++ (c, .error fault) :: after →
    after = [] ∧ outcome = .error fault
  /-- If none fails there is one run for each plugin. -/
  completes : AllSucceed runs → runs.length = entries.length ∧ outcome = answer runs

theorem IsCourse.of_allSucceed (hturn : InTurn entries call behave runs) (hok : AllSucceed runs)
    (hlength : runs.length = entries.length) :
    IsCourse entries call behave answer (answer runs) runs where
  inTurn := hturn
  stops before c fault after h := by
    have hmem : (c, .error fault) ∈ runs := by
      rw [h]
      exact List.mem_append_right _ List.mem_cons_self
    exact absurd hmem hok.ne_error
  completes _ := ⟨hlength, rfl⟩

theorem IsCourse.of_error {c : Call} {fault : Error} (hok : AllSucceed runs)
    (hturn : InTurn entries call behave (runs ++ [(c, .error fault)])) :
    IsCourse entries call behave answer (.error fault) (runs ++ [(c, .error fault)]) where
  inTurn := hturn
  stops before c' fault' after h := by
    rcases List.eq_nil_or_concat after with rfl | ⟨after, last, rfl⟩
    · obtain ⟨-, hrun⟩ := List.append_inj' h rfl
      cases hrun
      exact ⟨rfl, rfl⟩
    · -- what failed would be among the runs that did not
      rw [List.concat_eq_append, ← List.cons_append, ← List.append_assoc] at h
      have hmem : (c', .error fault') ∈ runs := by
        rw [(List.append_inj' h rfl).1]
        exact List.mem_append_right _ List.mem_cons_self
      exact absurd hmem hok.ne_error
  completes h := absurd (List.mem_append_right _ List.mem_cons_self) (AllSucceed.ne_error h)

/-- What the plugins answer is the outcome just if none of them fails. -/
theorem IsCourse.eq_ok_iff (h : IsCourse entries call behave answer outcome runs) {a : α} :
    outcome = .ok a ↔ AllSucceed runs ∧ answer runs = .ok a := by
  constructor
  · rintro rfl
    have hok : AllSucceed runs := by
      rintro ⟨c, fault | printed⟩ hrun
      · obtain ⟨before, after, hsplit⟩ := List.append_of_mem hrun
        exact absurd (h.stops before c fault after hsplit).2 nofun
      · exact ⟨printed, rfl⟩
    exact ⟨hok, (h.completes hok).2.symm⟩
  · rintro ⟨hok, hanswer⟩
    exact (h.completes hok).2.trans hanswer

end Course

/-! ## The loop -/

namespace Chain

variable {α : Type}

/-- Runs plugins in order, each with what the runs before it lead to. -/
def runAll (call : Entry → Runs → Call) (answer : Runs → Outcome α) :
    List Entry → Runs → Chain (Outcome α)
  | [], before => .done (answer before)
  | e :: rest, before =>
    .ask (call e before) fun (ended : Outcome (Option Json)) ↦
    match ended with
    | .error fault => .done (.error fault)
    | .ok printed => runAll call answer rest (before ++ [(call e before, .ok printed)])

/-- Makes a run that ends as it does by itself, and takes note of it. -/
def record (behave : Behaviour) (c : Call) (before : Runs) : Outcome (Option Json) × Runs :=
  (behave before c, before ++ [(c, behave before c)])

/-- What a chain ends with under a behaviour, and the runs that it has made. -/
def under (p : Chain α) (behave : Behaviour) : α × Runs := p.run (record behave) []

variable {call : Entry → Runs → Call} {answer : Runs → Outcome α} {done rest : List Entry}
  {behave : Behaviour} {before : Runs}

/-- The invariant: what has been run so far are the first plugins, in their turn, and none has
failed. -/
theorem isCourse_runAll (hturn : InTurn (done ++ rest) call behave before)
    (hok : AllSucceed before) (hlength : before.length = done.length) :
    IsCourse (done ++ rest) call behave answer
      ((runAll call answer rest before).run (record behave) before).1
      ((runAll call answer rest before).run (record behave) before).2 := by
  induction rest generalizing done before with
  | nil => exact .of_allSucceed hturn hok (by rw [List.append_nil, hlength])
  | cons e rest ih =>
    have he : (done ++ e :: rest)[before.length]? = some e := by
      rw [hlength, List.getElem?_append_right (Nat.le_refl _), Nat.sub_self,
        List.getElem?_cons_zero]
    have hnext := hturn.concat he
    rw [runAll, Program.run_ask, record]
    cases hended : behave before (call e before) with
    | error fault =>
      rw [hended] at hnext
      exact .of_error hok hnext
    | ok printed =>
      rw [hended] at hnext
      have hsplit : done ++ e :: rest = (done ++ [e]) ++ rest := by
        rw [List.append_assoc, List.singleton_append]
      rw [hsplit] at hnext ⊢
      exact ih hnext (hok.concat _ _) (by rw [List.length_append, List.length_append, hlength,
        List.length_singleton, List.length_singleton])

theorem isCourse_under (entries : List Entry) :
    IsCourse entries call behave answer ((runAll call answer entries []).under behave).1
      ((runAll call answer entries []).under behave).2 := by
  have hturn : InTurn ([] ++ entries) call behave [] := inTurn_nil
  exact isCourse_runAll hturn (fun _ h ↦ absurd h List.not_mem_nil) rfl

end Chain

/-! ## Attaching and detaching -/

namespace ConfigList

open Json (Members)

variable (l : ConfigList) (rt : Runtime)

/-- The call that attaches with a plugin: it is told the latest result. -/
def addCall (e : Entry) (before : Runs) : Call := l.call rt .add e (latest before)

/-- The call that detaches with a plugin: it is told no result. -/
def delCall (e : Entry) (_ : Runs) : Call := l.call rt .del e none

/-- What attaching answers once all plugins have run. -/
def answer (runs : Runs) : Outcome Result :=
  match latest runs with
  | some v => Result.ofJson v
  | none => .error (.plugin l.name 0 "plugin chain produced no result")

theorem add_eq_runAll : l.add rt = Chain.runAll (l.addCall rt) l.answer l.plugins [] := by
  suffices h : ∀ (entries : List Entry) (before : Runs),
      ((l.addFrom rt entries (latest before)).bind fun outcome ↦ .done do
        match ← outcome with
        | some v => Result.ofJson v
        | none => throw (.plugin l.name 0 "plugin chain produced no result")) =
          Chain.runAll (l.addCall rt) l.answer entries before from
    h l.plugins []
  intro entries
  induction entries with
  | nil =>
    intro before
    rw [addFrom, Chain.runAll, answer, Program.done_bind]
    cases latest before <;> rfl
  | cons e rest ih =>
    intro before
    rw [addFrom, Chain.runAll, Program.ask_bind]
    refine congrArg (Program.ask _) (funext fun ended ↦ ?_)
    rcases (ended : Outcome (Option Json)) with fault | printed
    · rfl
    · have hrest := ih (before ++ [(l.addCall rt e before, .ok printed)])
      rwa [latest_concat] at hrest

theorem del_eq_runAll :
    l.del rt = Chain.runAll (l.delCall rt) (fun _ ↦ .ok ()) l.plugins.reverse [] := by
  suffices h : ∀ (entries : List Entry) (before : Runs),
      l.delFrom rt entries = Chain.runAll (l.delCall rt) (fun _ ↦ .ok ()) entries before from
    h l.plugins.reverse []
  intro entries
  induction entries with
  | nil => exact fun before ↦ rfl
  | cons e rest ih =>
    intro before
    rw [delFrom, Chain.runAll]
    refine congrArg (Program.ask _) (funext fun ended ↦ ?_)
    rcases (ended : Outcome (Option Json)) with fault | printed
    · rfl
    · exact ih _

theorem answer_eq_ok_iff {runs : Runs} {r : Result} :
    l.answer runs = .ok r ↔ ∃ v, latest runs = some v ∧ Result.ofJson v = .ok r := by
  rw [answer]
  cases hlatest : latest runs with
  | none => exact ⟨fun h ↦ absurd h nofun, fun ⟨v, hv, _⟩ ↦ absurd hv nofun⟩
  | some v => exact ⟨fun h ↦ ⟨v, rfl, h⟩, fun ⟨w, hw, h⟩ ↦ Option.some_inj.mp hw ▸ h⟩

/-- **What a chain runs.** However the plugins end: to attach they are run in order, each told the
latest result so far, until one fails, and the error of that one is what comes of it; and a result
comes of it just if none fails and what was printed last is the document of that result. To detach
they are run in reverse order in the same way and told no result. A plugin reads as `prevResult`
what it is told, and if it is told nothing, what its entry has there by itself. -/
theorem chains_course (behave : Behaviour) :
    IsCourse l.plugins (l.addCall rt) behave l.answer ((l.add rt).under behave).1
      ((l.add rt).under behave).2 ∧
    (∀ r, ((l.add rt).under behave).1 = .ok r ↔ AllSucceed ((l.add rt).under behave).2 ∧
      ∃ v, latest ((l.add rt).under behave).2 = some v ∧ Result.ofJson v = .ok r) ∧
    IsCourse l.plugins.reverse (l.delCall rt) behave (fun _ ↦ .ok ()) ((l.del rt).under behave).1
      ((l.del rt).under behave).2 ∧
    (((l.del rt).under behave).1 = .ok () ↔ AllSucceed ((l.del rt).under behave).2) ∧
    ∀ command e previous, ∃ entry doc : Members, e.toJson.canonical = .object entry ∧
      (l.call rt command e previous).input = .object doc ∧
      doc.get? "prevResult" = previous.or (entry.get? "prevResult") := by
  have hadd : IsCourse l.plugins (l.addCall rt) behave l.answer ((l.add rt).under behave).1
      ((l.add rt).under behave).2 := by
    rw [add_eq_runAll]
    exact Chain.isCourse_under _
  have hdel : IsCourse l.plugins.reverse (l.delCall rt) behave (fun _ ↦ .ok ())
      ((l.del rt).under behave).1 ((l.del rt).under behave).2 := by
    rw [del_eq_runAll]
    exact Chain.isCourse_under _
  refine ⟨hadd, fun r ↦ ?_, hdel, ?_, fun command e previous ↦ ?_⟩
  · rw [hadd.eq_ok_iff, answer_eq_ok_iff]
  · rw [hdel.eq_ok_iff]
    exact and_iff_left rfl
  · obtain ⟨doc, hdoc, hspec⟩ :=
      exists_isDocument (e := e) l rfl (Members.isSorted_ofList _) previous rt
    exact ⟨_, doc, rfl, hdoc, hspec.prevResult⟩

/-- A plugin whose entry has a previous result of its own, and which is the first of the list. It
reads that result although there is none before it. -/
theorem first_reads_own_result :
    let e : Entry := ⟨none, "portmap", none, none, [("prevResult", .object [])]⟩
    let l : ConfigList := ⟨"0.4.0", "data", [e]⟩
    let rt : Runtime := {
      containerId := "abc", netns := "/proc/1/ns/net", interface := "eth1", capabilityArgs := [] }
    ¬∀ behave before c ended after (doc : Members),
      ((l.add rt).under behave).2 = before ++ (c, ended) :: after → c.input = .object doc →
        doc.get? "prevResult" = latest before := by
  intro e l rt h
  obtain ⟨doc, hdoc, hspec⟩ :=
    exists_isDocument (e := e) l rfl (Members.isSorted_ofList _) none rt
  have hnone : Members.get? "prevResult" doc = none :=
    h (fun _ _ ↦ .ok none) [] (l.addCall rt e []) (.ok none) [] doc rfl hdoc
  have hown : Members.get? "prevResult" doc = some (.object []) := hspec.prevResult
  exact absurd (hown.symm.trans hnone) (Option.some_ne_none _)

end ConfigList

end ContainerNet.Plugin
