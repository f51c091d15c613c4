import Retarget.Proofs.Marked
import Retarget.Proofs.Step

/-!
# Counts and marks

A visit counts a call exactly when it leaves its mark there. So the count of a pass and the number
of calls with its mark grow by the same amount, and a visit of another pass changes neither.

Results:
1. `carriers_amend`: by how much the calls with a mark grow in number.
2. `Balanced.visit`, `Balanced.visits`: what a pass has counted meanwhile is the number of calls
   that have got its mark.
3. `Balanced.eq`: so the program tells what the passes have counted.
-/

namespace Retarget

/-! ## Definitions -/

/-- The number of calls among items that carry a mark. -/
def carriers (mark : Mark) (body : List Node) : Nat :=
  (body.flatMap Tree.calls).countP fun call => mark ∈ call.marks

/-- The passes of a session have the settings of before, and each has counted the calls that have
got its mark since. -/
structure Session.Balanced (before now : Session) : Prop where
  length : now.passes.length = before.passes.length
  pass : ∀ {number : Nat} {old : Pass}, before.passes[number]? = some old →
    ∃ new, now.passes[number]? = some new ∧ new.settings = old.settings ∧
      new.processed + carriers number before.program.body =
        old.processed + carriers number now.program.body

/-- A session after visits one after the other. -/
def Session.afterVisits (session : Session) (visits : List (Nat × Scope)) : Session :=
  session.after (visits.map fun visit => .visit visit.1 visit.2)

/-! ## 1. Calls that get a mark -/

theorem countP_verdict (settings : Settings) (mark other : Mark) (calls : List Call) :
    ((calls.map (Call.amend (settings.verdict mark))).countP fun call => other ∈ call.marks) =
      (calls.countP fun call => other ∈ call.marks) +
        if other = mark then calls.countP fun call => mark ∉ call.marks else 0 := by
  rw [List.countP_map]
  by_cases h : other = mark
  · subst h
    have hall : calls.countP ((fun call => decide (other ∈ call.marks)) ∘
        Call.amend (settings.verdict other)) = calls.length :=
      List.countP_eq_length.mpr fun call _ => decide_eq_true (Tree.mem_verdict.mpr (.inr rfl))
    rw [if_pos rfl, hall, List.length_eq_countP_add_countP fun call => decide (other ∈ call.marks)]
    simp only [decide_eq_true_eq]
  · rw [if_neg h, Nat.add_zero]
    apply List.countP_congr
    intro call _
    show decide (other ∈ (settings.verdict mark call).marks) = true ↔ _
    rw [decide_eq_true_eq, decide_eq_true_eq, Tree.mem_verdict]
    exact or_iff_left h

theorem carriers_cons (mark : Mark) (item : Node) (rest : List Node) :
    carriers mark (item :: rest) =
      (item.calls.countP fun call => mark ∈ call.marks) + carriers mark rest := by
  rw [carriers, List.flatMap_cons, List.countP_append]
  rfl

/-- A visit of a part of a body lets the calls with its mark grow in number by those in the scope
that did not have it, and leaves the number for every other mark. -/
theorem carriers_amend (settings : Settings) (mark other : Mark) (scope : Scope)
    (body : List Node) :
    carriers other (scope.amend (settings.verdict mark) body) =
      carriers other body +
        if other = mark then (scope.calls body).countP fun call => mark ∉ call.marks else 0 := by
  have hall : (body.map (Tree.amend (settings.verdict mark))).flatMap Tree.calls =
      (body.flatMap Tree.calls).map (Call.amend (settings.verdict mark)) :=
    Scope.calls_amend (settings.verdict mark) .program body
  cases scope with
  | program =>
    rw [carriers, Scope.amend, hall]
    exact countP_verdict settings mark other _
  | root =>
    rw [carriers, Scope.amend, hall]
    exact countP_verdict settings mark other _
  | item index =>
    clear hall
    -- Along the body to the place of the item; the rest of it keeps its calls.
    induction body generalizing index with
    | nil =>
      rw [Scope.amend, List.modify_nil]
      exact (congrArg (carriers other [] + ·) (ite_self 0)).symm
    | cons first rest ih =>
      rw [carriers_cons]
      cases index with
      | zero =>
        have hcalls : (Scope.item 0).calls (first :: rest) = first.calls := List.append_nil _
        show carriers other (first.amend (settings.verdict mark) :: rest) = _
        rw [hcalls, carriers_cons, Tree.calls_amend, countP_verdict]
        exact Nat.add_right_comm _ _ _
      | succ index =>
        show carriers other (first :: (Scope.item index).amend (settings.verdict mark) rest) = _
        rw [carriers_cons, ih index]
        exact (Nat.add_assoc _ _ _).symm

/-! ## 2. The balance -/

namespace Session

theorem Balanced.refl (session : Session) : Balanced session session :=
  ⟨rfl, fun h => ⟨_, h, rfl, rfl⟩⟩

theorem Balanced.trans {first second third : Session} (h : Balanced first second)
    (h' : Balanced second third) : Balanced first third := by
  refine ⟨h'.length.trans h.length, ?_⟩
  intro number old hold
  obtain ⟨middle, hmiddle, hsettings, hcount⟩ := h.pass hold
  obtain ⟨new, hnew, hsettings', hcount'⟩ := h'.pass hmiddle
  exact ⟨new, hnew, hsettings'.trans hsettings, by omega⟩

/-- The program tells what the passes have counted. -/
theorem Balanced.eq {before first second : Session} (h : Balanced before first)
    (h' : Balanced before second) (hprogram : first.program = second.program) :
    first = second := by
  suffices hpasses : first.passes = second.passes by
    obtain ⟨program, passes⟩ := first
    exact congr (congrArg Session.mk hprogram) hpasses
  apply List.ext_getElem?
  intro number
  cases hold : before.passes[number]? with
  | none =>
    have hle := List.getElem?_eq_none_iff.mp hold
    rw [List.getElem?_eq_none (Nat.le_trans (Nat.le_of_eq h.length) hle),
      List.getElem?_eq_none (Nat.le_trans (Nat.le_of_eq h'.length) hle)]
  | some old =>
    obtain ⟨⟨settings, processed⟩, hnew, hsettings, hcount⟩ := h.pass hold
    obtain ⟨⟨settings', processed'⟩, hnew', hsettings', hcount'⟩ := h'.pass hold
    rw [hprogram] at hcount
    have hprocessed : processed = processed' := Nat.add_right_cancel (hcount.trans hcount'.symm)
    rw [hnew, hnew', hprocessed, show settings = settings' from hsettings.trans hsettings'.symm]

/-- A visit counts the calls that get its mark. -/
theorem Balanced.visit (session : Session) (number : Nat) (scope : Scope) :
    Balanced session (session.visit number scope).1 := by
  cases hpass : session.passes[number]? with
  | none =>
    rw [visit_of_none hpass]
    exact .refl session
  | some pass =>
    rw [visit_of_some hpass]
    refine ⟨List.length_set, ?_⟩
    intro other old hold
    have hgrow := carriers_amend pass.settings number other scope session.program.body
    by_cases h : other = number
    · subst h
      cases hpass.symm.trans hold
      refine ⟨pass.tally other (scope.calls session.program.body), ?_, rfl, ?_⟩
      · exact List.getElem?_set_self (List.getElem?_eq_some_iff.mp hpass).1
      · rw [if_pos rfl] at hgrow
        rw [hgrow]
        show pass.processed + _ + carriers other session.program.body = _
        omega
    · refine ⟨old, ?_, rfl, ?_⟩
      · rw [List.getElem?_set_ne (Ne.symm h)]
        exact hold
      · rw [if_neg h] at hgrow
        rw [hgrow]
        rfl

/-- What a pass has counted in a sequence of visits is the number of calls that have got its mark.
-/
theorem Balanced.visits (session : Session) (visits : List (Nat × Scope)) :
    Balanced session (session.afterVisits visits) := by
  induction visits generalizing session with
  | nil => exact .refl session
  | cons first rest ih => exact (Balanced.visit session first.1 first.2).trans (ih _)

end Session

end Retarget
