import PolyBot.Execution.Legs

/-! The policy's partial-fill action against the executor's unwinds, which look at filled sizes alone. -/

namespace PolyBot.Execution.PartialFillActions
open OrderExecutor

def Unwound (legs : List Leg) (leg : Leg) : Prop :=
  unwindIntent leg.2 (batchExcess legs leg) ∈ plannedUnwinds (intentsOf legs) (resultsOf legs)

def action (d : DualPolicy) (nowSecs : ℕ) (leg : Leg) : PartialFillAction :=
  (d.policy.toOrderParams nowSecs (IntentRef.fromIntent leg.2)).onPartialFill

/-- The policy asks to unwind exactly the grouped legs that are not passive. -/
theorem action_eq_unwindFilled_iff (d : DualPolicy) (nowSecs : ℕ) (leg : Leg) :
    action d nowSecs leg = .UnwindFilled ↔ leg.2.urgency ≠ .Passive ∧ leg.group ≠ none := by
  have haction : action d nowSecs leg = DualPolicy.partialFillAction leg.2.urgency leg.2.groupId :=
    d.toOrderParams_onPartialFill nowSecs (IntentRef.fromIntent leg.2)
  rw [haction, Leg.group]
  cases leg.2.urgency <;> cases leg.2.groupId <;> simp [DualPolicy.partialFillAction]

theorem unwound_iff {legs : List Leg} {leg : Leg} (h : leg ∈ legs) :
    Unwound legs leg ↔ firstIsGrouped (intentsOf legs) = true ∧ 0 < batchExcess legs leg := by
  rw [Unwound, mem_plannedUnwinds]
  constructor
  · rintro ⟨hfirst, leg', -, hpos, heq⟩
    have hsize : batchExcess legs leg' = batchExcess legs leg := congrArg OrderIntent.size heq
    exact ⟨hfirst, hsize ▸ hpos⟩
  · rintro ⟨hfirst, hpos⟩
    exact ⟨hfirst, leg, h, hpos, rfl⟩

/-- Every unwound leg is one whose action is to unwind exactly when the batch is not treated as grouped or
no passive leg and no leg without a group filled more than another leg. -/
theorem unwinds_honour_action_iff (d : DualPolicy) (nowSecs : ℕ) (legs : List Leg) :
    (∀ leg ∈ legs, Unwound legs leg → action d nowSecs leg = .UnwindFilled) ↔
      firstIsGrouped (intentsOf legs) = false ∨
        ∀ leg ∈ legs, (leg.2.urgency = .Passive ∨ leg.group = none) → ∀ leg' ∈ legs, leg.filled ≤ leg'.filled := by
  constructor
  · intro hhonour
    cases hfirst : firstIsGrouped (intentsOf legs) with
    | false => exact .inl rfl
    | true =>
      right
      intro leg hleg hkept leg' hleg'
      by_contra hlt
      have hpos := (batchExcess_pos_iff hleg).mpr ⟨leg', hleg', not_le.mp hlt⟩
      have haction := hhonour leg hleg ((unwound_iff hleg).mpr ⟨hfirst, hpos⟩)
      obtain ⟨hurgent, hgrouped⟩ := (action_eq_unwindFilled_iff d nowSecs leg).mp haction
      rcases hkept with hpassive | hungrouped
      · exact hurgent hpassive
      · exact hgrouped hungrouped
  · intro hcond leg hleg hunwound
    obtain ⟨hfirst, hpos⟩ := (unwound_iff hleg).mp hunwound
    obtain ⟨leg', hleg', hlt⟩ := (batchExcess_pos_iff hleg).mp hpos
    rw [action_eq_unwindFilled_iff]
    rcases hcond with hnot | hfloor
    · rw [hfirst] at hnot
      cases hnot
    · constructor
      · intro hpassive
        exact absurd (hfloor leg hleg (.inl hpassive) leg' hleg') (not_le.mpr hlt)
      · intro hungrouped
        exact absurd (hfloor leg hleg (.inr hungrouped) leg' hleg') (not_le.mpr hlt)

private def makerLeg (tokenId : TokenId) : OrderIntent :=
  ((OrderIntent.new "m1" tokenId .Buy (47 / 100) 5 .Passive "MakerRebateArbStrategy").withGroup
    "maker-arb-1").withPriority 90

private def filledLeg : Leg := acceptedLeg DualPolicy.new.policy 0 (makerLeg "yes") (.taking "x" 5)
private def restingLeg : Leg := acceptedLeg DualPolicy.new.policy 0 (makerLeg "no") (.taking "x" 0)

/-- A maker leg that filled at once is unwound while its sibling still rests. -/
theorem resting_maker_leg_is_unwound :
    restingLeg.1.status = .Pending ∧ Unwound [filledLeg, restingLeg] filledLeg ∧
      action DualPolicy.new 0 filledLeg = .KeepRemainder := by
  refine ⟨by decide +kernel, ?_, by decide +kernel⟩
  unfold Unwound
  decide +kernel

end PolyBot.Execution.PartialFillActions
