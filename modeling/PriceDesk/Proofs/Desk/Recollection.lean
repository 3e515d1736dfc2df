import PriceDesk.Proofs.Desk.History

namespace PriceDesk.Desk

variable {ω : Type}

/-- Last results of any capacity recall any sequence of completions, and those of a desk recall what
it has published. -/
theorem last_results_recall_recent (s : Setup ω) :
    (∀ capacity cs, (LastResults.of capacity cs).Recalls capacity cs) ∧
      ∀ moves d, Run s moves d →
        d.lastResults.Recalls LastResults.defaultCapacity d.feed.completions := by
  refine ⟨LastResults.of_recalls, fun moves d run => ?_⟩
  rw [run.lastResults_eq]
  exact LastResults.of_recalls _ _

/-- The price of a pair is asked for again after that of another, so that the other one is the
oldest. -/
theorem prompt_prices_are_recalled : ∃ moves d,
    Run (promptSetup [.of "BTC" "USD", .of "ETH" "USD"]) moves d ∧
      d.lastResults.Recalls LastResults.defaultCapacity d.feed.completions ∧
      d.feed.completions.map (·.key.pair) =
        [.of "BTC" "USD", .of "ETH" "USD", .of "BTC" "USD"] ∧
      d.lastResults.order.map (·.pair) = [.of "ETH" "USD", .of "BTC" "USD"] := by
  have run := Run.start (s := promptSetup [.of "BTC" "USD", .of "ETH" "USD"]) promptFloor
    |>.move (a := .request { pair := .of "BTC" "USD" }) rfl rfl
    |>.move (a := .lookup (.flight 0) 0) trivial rfl
    |>.move (a := .lookup (.flight 0) 0) trivial rfl
    |>.move (a := .lookup (.flight 0) 0) trivial rfl
    |>.move (a := .advance 0) trivial rfl
    |>.move (a := .advance 0) trivial rfl
    |>.move (a := .advance 0) trivial rfl
    |>.move (a := .request { pair := .of "ETH" "USD" }) rfl rfl
    |>.move (a := .lookup (.flight 1) 0) trivial rfl
    |>.move (a := .lookup (.flight 1) 0) trivial rfl
    |>.move (a := .advance 1) trivial rfl
    |>.move (a := .advance 1) trivial rfl
    |>.move (a := .advance 1) trivial rfl
    |>.move (a := .request { pair := .of "BTC" "USD" }) rfl rfl
    |>.move (a := .lookup (.flight 2) 0) trivial rfl
    |>.move (a := .lookup (.flight 2) 0) trivial rfl
    |>.move (a := .advance 2) trivial rfl
    |>.move (a := .advance 2) trivial rfl
    |>.move (a := .advance 2) trivial rfl
  exact ⟨_, _, run, (last_results_recall_recent _).2 _ _ run, by rfl, by rfl⟩

end PriceDesk.Desk
