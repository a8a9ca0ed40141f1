import Migrations.Proofs.Run.PerScript

/-!
# Runs in One Transaction

What a run leaves that executes all scripts of its plan in one transaction: everything that a run
script by script would leave that succeeds, or nothing at all.

## Main statements

- `Runner.ends_applyTogether`: what the loop over the scripts adds to the transaction.
- `Runner.ends_runPerPlan`: the whole plan is committed, or nothing of it.
-/

namespace Migrations

open Attempt

namespace Runner

variable {runner : Runner} {plan : Plan} {world : World}

/-- The scripts add what they would leave one by one, unless one of them fails. -/
theorem ends_applyTogether (hhooks : runner.hooks.OnlyExecute) (direction : Direction)
    (scripts : List Script) (sequence : Nat) {tx : Transaction} {now : World}
    (hsame : world.SameCircumstances now) (hfits : tx.Fits now.database) :
    Ends (runner.applyTogether direction sequence scripts tx) now
      (fun result after =>
        result.2.map (fun outcome => (outcome.id, outcome.state)) =
          scripts.map (fun script => (script.id, .running)) ∧
        runner.Collected direction scripts
          (runner.runStatements direction world sequence scripts ++
            runner.hookStatements (.after direction) none world) now tx after result.1)
      (fun failure after => failure.1.map Outcome.mark = Script.marks false scripts ∧
        runner.Effect direction [] [] now after) := by
  -- the transaction grows with every script; outside of it nothing changes
  induction scripts generalizing sequence tx now with
  | nil =>
    rw [ends_applyTogether_nil]
    refine (ends_callHook hhooks (.after direction) none tx hsame).mono (fun t after h => ?_)
      fun failure after h => ?_
    · obtain ⟨rfl, rfl⟩ := h
      exact ⟨rfl, .statements runner direction after hfits _⟩
    · obtain ⟨rfl, -⟩ := h
      exact ⟨rfl, .nothing direction (.refl after) rfl⟩
  | cons script rest ih =>
    have hpending := Outcome.marks_pending rest
    rw [ends_applyTogether_cons]
    cases htext : script.text direction with
    | error failure =>
      exact ⟨congrArg (_ :: ·) hpending, .nothing direction (.refl now) rfl⟩
    | ok text =>
      refine (ends_apply hhooks direction sequence htext hsame hfits).mono
        (fun result after h => ?_) fun failure after h => ⟨congrArg (_ :: ·) hpending, h⟩
      have hfits' : result.1.Fits after.database := by
        rw [h.database]
        exact h.fits
      refine (ih (sequence + 1) (hsame.trans h.circumstances) hfits').mono
        (fun last final h' => ?_) fun failure final h' => ?_
      · refine ⟨congrArg (_ :: ·) h'.1, ?_⟩
        rw [runStatements_cons, List.append_assoc]
        exact h.append h'.2
      · exact ⟨congrArg (_ :: ·) h'.1, h.nothing.append h'.2⟩

/-- The whole plan is committed, or nothing of it. -/
theorem ends_runPerPlan (hhooks : runner.hooks.OnlyExecute) :
    Ends (runner.runPerPlan plan) (runner.start plan world)
      (fun outcomes after => runner.Progress plan world plan.scripts []
        (runner.hookStatements (.after plan.direction) none world) outcomes after)
      (fun failure after => failure.1.map Outcome.mark = Script.marks false plan.scripts ∧
        runner.Effect plan.direction [] [] (runner.start plan world) after) := by
  have hstart := sameCircumstances_start runner plan world
  rw [ends_runPerPlan_eq]
  refine (ends_callHook hhooks (.before plan.direction) none {} hstart).mono (fun t now h => ?_)
    fun failure after h => ?_
  · obtain ⟨rfl, rfl⟩ := h
    have hbefore := Collected.statements runner plan.direction (runner.start plan world)
      (Transaction.fits_empty _) (runner.hookStatements (.before plan.direction) none world)
    refine (ends_applyTogether hhooks plan.direction plan.scripts 0 hstart hbefore.fits).mono
      (fun result after h => ?_) fun failure after h => ?_
    · have hmarks := Outcome.marks_commitAll h.1
      refine ⟨(List.append_nil _).symm, by simpa [Script.marks] using hmarks, ?_⟩
      rw [List.append_assoc]
      exact (hbefore.append h.2).effect
    · exact ⟨Outcome.marks_abandonAll h.1, h.2⟩
  · obtain ⟨rfl, -⟩ := h
    exact ⟨Outcome.marks_abandonAll (Outcome.marks_pending _), .nothing _ (.refl _) rfl⟩

end Runner

end Migrations
