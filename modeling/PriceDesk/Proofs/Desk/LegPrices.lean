import PriceDesk.Proofs.Desk.History
import PriceDesk.Proofs.Desk.Steady

namespace PriceDesk

variable {ω : Type}

def Stage.Prices (answers : Answers ω) (s : Setup ω) (leg : Leg) : Stage ω → Prop
  | .choosing l queue failure => l = leg ∧ (∀ p ∈ queue, p ∈ s.registry.providers) ∧
      answers.ask leg queue failure = answers.legPrice s leg
  | .asking l p call queue => l = leg ∧ (∀ q ∈ p :: queue, q ∈ s.registry.providers) ∧
      (∃ pricing, p.pricing = some pricing ∧ call.Brings
        (answers.quotes p (Desk.singleOrAll pricing.features leg.providerPair))) ∧
      ∃ failure, answers.ask leg (p :: queue) failure = answers.legPrice s leg
  | .done r => r = answers.legPrice s leg
  | .surveying _ | .combining _ _ => False

namespace Desk

variable {s : Setup ω} {answers : Answers ω} {d e : Desk ω}

theorem prices_opening (key : RequestKey) (leg : Leg) :
    (opening s key (some leg)).Prices answers s leg := by
  refine ⟨rfl, fun p member => ?_, rfl⟩
  exact (Discovery.mem_having.mp (List.mem_filter.mp (onNetwork_of_askOrder member)).1).1

theorem prices_of_ending {f : Flight ω} {leg : Leg} {r : PriceResult}
    (prices : f.stage.Prices answers s leg) (ending : Ending s d f r) :
    r = answers.legPrice s leg := by
  cases ending with
  | unfound stage _ _ | combined stage _ _ _ _ =>
    rw [stage] at prices
    cases prices
  | exhausted stage =>
    rw [stage] at prices
    exact prices.2.2
  | @priced leg p call queue quotes price stage answer priced =>
    rw [stage] at prices
    obtain ⟨rfl, _, ⟨pricing, has, brings⟩, failure, asked⟩ := prices
    have answered := brings.eq_of_poll answer
    simp only [Answers.ask, has, ← answered, Except.bind, priced] at asked
    exact asked
  | @refused leg p call queue outcome failure stage answer failed final =>
    rw [stage] at prices
    obtain ⟨rfl, _, ⟨pricing, has, brings⟩, failure', asked⟩ := prices
    have answered := brings.eq_of_poll answer
    simp only [Answers.ask, has, ← answered, failed, final, if_true] at asked
    exact asked

theorem prices_of_onward (steady : answers.Steady s) {f : Flight ω} {leg : Leg} {stage : Stage ω}
    {world : ω} (prices : f.stage.Prices answers s leg) (onward : Onward s d f stage world) :
    stage.Prices answers s leg := by
  cases onward with
  | found now _ _ =>
    rw [now] at prices
    cases prices
  | skipped now mute =>
    rw [now] at prices
    obtain ⟨rfl, queued, asked⟩ := prices
    refine ⟨rfl, fun q member => queued q (List.mem_cons_of_mem _ member), ?_⟩
    simpa only [Answers.ask, mute] using asked
  | @asked leg p queue failure pricing call world now has called =>
    rw [now] at prices
    obtain ⟨rfl, queued, asked⟩ := prices
    refine ⟨rfl, queued, ⟨pricing, has, ?_⟩, failure, asked⟩
    have brings := steady.quotes p (queued p List.mem_cons_self) pricing has
      (singleOrAll pricing.features leg.providerPair) d.floor.clock.now d.floor.world
    rw [called] at brings
    exact brings
  | @retried leg p call queue outcome failure now answer failed mendable =>
    rw [now] at prices
    obtain ⟨rfl, queued, ⟨pricing, has, brings⟩, failure', asked⟩ := prices
    have answered := brings.eq_of_poll answer
    refine ⟨rfl, fun q member => queued q (List.mem_cons_of_mem _ member), ?_⟩
    simpa only [Answers.ask, has, ← answered, failed, mendable, Bool.false_eq_true, if_false]
      using asked

theorem prices_move (steady : answers.Steady s) (h : Coherent d) {a : Action ω}
    (t : Transition s d a e) {f g : Flight ω} {leg : Leg} (was : f ∈ d.flights)
    (there : g ∈ e.flights) (number : f.id = g.id) (prices : f.stage.Prices answers s leg) :
    g.stage.Prices answers s leg := by
  have below := h.below f was
  have own : ∀ {f' : Flight ω}, d.flight? f'.id = some f' → f'.id = g.id → f' = f :=
    fun flight same => h.eq_of_id (mem_of_flight? flight) was (same.trans number.symm)
  cases became h t there with
  | kept member =>
    cases h.eq_of_id was member number
    exact prices
  | asked new _ _ | leg new _ _ _ _ _ =>
    exact absurd number (Nat.ne_of_lt (Nat.lt_of_lt_of_le below new))
  | looked flight now restaged | split flight _ now _ _ restaged =>
    subst restaged
    cases own flight rfl
    rw [now] at prices
    cases prices
  | ended flight _ ending restaged =>
    subst restaged
    cases own flight rfl
    exact prices_of_ending prices ending
  | wentOn flight _ onward restaged =>
    subst restaged
    cases own flight rfl
    exact prices_of_onward steady prices onward

theorem settled_move (steady : answers.Steady s) (h : Coherent d) {a : Action ω}
    (t : Transition s d a e) {i : Nat} {leg : Leg}
    (settled : Settled d i fun g => g.stage.Prices answers s leg) :
    Settled e i fun g => g.stage.Prices answers s leg :=
  settled.follow h t fun _ was _ _ there number => prices_move steady h t was there number

end Desk

end PriceDesk
