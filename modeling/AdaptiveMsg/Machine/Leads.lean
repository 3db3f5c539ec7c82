import AdaptiveMsg.Machine.Run

/-!
# Machine — what a machine is bound to reach

Some of the events of a machine go on by themselves; the others come from outside.  `Leads M D G s`:
however the events meeting `D` are ordered, and as long as no other comes between, the run from `s`
reaches a state that meets `G`, and until then one of them changes something.  A step that changes
nothing, as when a task looks again and finds nothing, does not count.

* `leads_of_progress`: a measure that the changes lower, and that such a state still has one.
* `leads_of_measure`: the same where no step leaves the state as it is.
-/

namespace Machine

variable {σ ε : Type*} {M : Machine σ ε} {D : ε → Prop} {G I : σ → Prop} {s s' : σ}

/-- Every way to take the events that meet `D` reaches `G`. -/
inductive Leads (M : Machine σ ε) (D : ε → Prop) (G : σ → Prop) : σ → Prop where
  | here {s : σ} (h : G s) : Leads M D G s
  | step {s : σ} (hgo : ∃ e s', D e ∧ M.step s e = some s' ∧ s' ≠ s)
      (hall : ∀ e s', D e → M.step s e = some s' → s' ≠ s → Leads M D G s') : Leads M D G s

/-- A machine that goes on until `G` holds, each change lowering a measure, reaches `G`. -/
theorem leads_of_progress (μ : σ → Nat)
    (hstep : ∀ s e s', I s → D e → M.step s e = some s' → s' ≠ s → I s' ∧ μ s' < μ s)
    (hgo : ∀ s, I s → ¬G s → ∃ e s', D e ∧ M.step s e = some s' ∧ s' ≠ s) (h : I s) :
    M.Leads D G s := by
  induction hn : μ s using Nat.strongRecOn generalizing s with
  | ind n ih =>
      by_cases hG : G s
      · exact .here hG
      · refine .step (hgo s h hG) fun e s' he hs hne => ?_
        obtain ⟨hI, hlt⟩ := hstep s e s' h he hs hne
        exact ih (μ s') (hn ▸ hlt) hI rfl

/-- Where every step lowers the measure, every step is a change. -/
theorem leads_of_measure (μ : σ → Nat)
    (hstep : ∀ s e s', I s → D e → M.step s e = some s' → I s' ∧ μ s' < μ s)
    (hgo : ∀ s, I s → ¬G s → ∃ e s', D e ∧ M.step s e = some s') (h : I s) : M.Leads D G s := by
  refine leads_of_progress μ (fun s e s' hI he hs _ => hstep s e s' hI he hs)
    (fun s hI hG => ?_) h
  obtain ⟨e, s', he, hs⟩ := hgo s hI hG
  refine ⟨e, s', he, hs, fun heq => ?_⟩
  subst heq
  exact Nat.lt_irrefl _ (hstep _ e _ hI he hs).2

end Machine
