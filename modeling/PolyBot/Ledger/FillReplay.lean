import PolyBot.Ledger.Runs

namespace PolyBot.Ledger.FillReplay
open General.CappedLog General.Replay

def fillsIn (ops : List LedgerOp) : List Fill := ops.filterMap LedgerOp.fill?

private theorem fillsIn_cons_of_none {op : LedgerOp} (h : op.fill? = none) (ops : List LedgerOp) :
    fillsIn (op :: ops) = fillsIn ops := List.filterMap_cons_none h

private theorem fillsIn_cons_fill (f : Fill) (ops : List LedgerOp) :
    fillsIn (.processFill f :: ops) = f :: fillsIn ops := rfl

private theorem seenFillIds_apply (l : Ledger) (op : LedgerOp) :
    (op.apply l).seenFillIds = match op.fill? with
      | none => l.seenFillIds
      | some f => insert f.fillId l.seenFillIds := by
  cases h : op.fill? with
  | none => exact (apply_history h).seenFillIds
  | some f =>
    cases op with
    | processFill g =>
      cases h
      exact l.seenFillIds_processFill f
    | _ => cases h

/-- A run accepts the fills whose id it has not met, in their order. -/
theorem acceptedFills_ids (l : Ledger) (ops : List LedgerOp) :
    (acceptedFills l ops).map Fill.fillId = (fresh Fill.fillId l.seenFillIds (fillsIn ops)).map Fill.fillId := by
  induction ops generalizing l with
  | nil => rfl
  | cons op ops ih =>
    rw [acceptedFills, List.map_append, ih, seenFillIds_apply]
    cases h : op.fill? with
    | none => rw [accepted_of_fill?_none h, fillsIn_cons_of_none h, List.map_nil, List.nil_append]
    | some f =>
      cases op with
      | processFill g =>
        cases h
        rw [fillsIn_cons_fill]
        by_cases hseen : f.fillId ∈ l.seenFillIds
        · rw [accepted, if_pos hseen, fresh_cons_of_mem hseen, List.map_nil, List.nil_append]
          dsimp only
          rw [Finset.insert_eq_of_mem hseen]
        · rw [accepted, if_neg hseen, fresh_cons_of_notMem hseen]
          rfl
      | _ => cases h

/-- The step lemma of the history: it is extended by what the step accepts and otherwise kept. -/
theorem history_apply {full : List Fill} {l : Ledger} (op : LedgerOp)
    (h : Retains MAX_FILLS (MAX_FILLS / 2) full l.fills) :
    Retains MAX_FILLS (MAX_FILLS / 2) (full ++ accepted l op) (op.apply l).fills := by
  cases hop : op.fill? with
  | none =>
    rw [accepted_of_fill?_none hop, List.append_nil, (apply_history hop).fills]
    exact h
  | some f =>
    cases op with
    | processFill g =>
      cases hop
      by_cases hseen : f.fillId ∈ l.seenFillIds
      · rw [LedgerOp.apply, processFill_of_seen hseen, accepted, if_pos hseen, List.append_nil]
        exact h
      · rw [LedgerOp.apply, processFill_of_new hseen, accepted, if_neg hseen]
        exact h.push (by decide) (l.resolve f)
    | _ => cases hop

theorem history_run {full : List Fill} {l : Ledger} (ops : List LedgerOp)
    (h : Retains MAX_FILLS (MAX_FILLS / 2) full l.fills) :
    Retains MAX_FILLS (MAX_FILLS / 2) (full ++ acceptedFills l ops) (run l ops).fills := by
  induction ops generalizing full l with
  | nil => simpa [acceptedFills, run] using h
  | cons op ops ih =>
    rw [acceptedFills, ← List.append_assoc]
    exact ih (history_apply op h)

/-- Replaying fills leaves the ledger of their first occurrences, from any ledger. In every run of the
ledger's operations from an empty one, the history is a suffix of the accepted fills, which are the
first occurrences, and its length stays between the two bounds. -/
theorem fill_replay_idempotent (l : Ledger) (fills : List Fill) (initialCash : Decimal) (ops : List LedgerOp) :
    let start := Ledger.new initialCash
    fills.foldl processFill l = (firstOccurrences Fill.fillId fills).foldl processFill l ∧
      (acceptedFills start ops).map Fill.fillId = (firstOccurrences Fill.fillId (fillsIn ops)).map Fill.fillId ∧
      (run start ops).fills <:+ acceptedFills start ops ∧
      (run start ops).fills.length ≤ 10000 ∧
      min (acceptedFills start ops).length 5001 ≤ (run start ops).fills.length := by
  intro start
  have hhistory := history_run (l := start) ops Retains.nil
  rw [List.nil_append] at hhistory
  exact ⟨processFill_deduplicates.foldl_firstOccurrences l fills, acceptedFills_ids start ops, hhistory.suffix,
    hhistory.length_le, hhistory.le_length⟩

end PolyBot.Ledger.FillReplay
