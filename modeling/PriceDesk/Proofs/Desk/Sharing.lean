import PriceDesk.Proofs.Desk.Delivery
import PriceDesk.Proofs.Desk.Transparency

namespace PriceDesk

variable {ω : Type}

def Solo (s : Setup ω) (ttl : Duration) (key : RequestKey) (r : PriceResult) : Prop :=
  ∃ moves d m, Desk.Run s moves d ∧ (Desk.opened moves d).floor.listings = { ttl } ∧
    (∀ n ∈ moves, n.IsRegistered s) ∧ m ∈ moves ∧ m.action = .request key ∧
    (∀ n ∈ moves, ∀ k, n.action = .request k → n = m) ∧ m.Given moves r

theorem Move.isRegistered_of_isWork (s : Setup ω) {m : Move ω} (isWork : m.action.IsWork) :
    m.IsRegistered s := by
  intro ps asks
  rw [asks] at isWork
  cases isWork

namespace Desk

variable {s : Setup ω} {answers : Answers ω} {d e : Desk ω} {moves : List (Move ω)}
  {key : RequestKey}

section

variable (run : Run s moves d) (steady : answers.Steady s) {ttl : Duration}
  (fresh : (opened moves d).floor.listings = { ttl })
  (registered : ∀ m ∈ moves, m.IsRegistered s)

include run steady fresh registered

theorem Run.comes_of_given {m : Move ω} (member : m ∈ moves) (request : m.action = .request key)
    {r : PriceResult} (given : m.Given moves r) : Comes answers s moves key r := by
  obtain ⟨earlier, later, e, f, rfl, run', same, among, waits, there, stage⟩ :=
    run.collected member request given
  have registered' := fun n sooner => registered n (List.mem_append_left _ sooner)
  have keyed := (run'.asked_for among request waits).2 f there rfl
  have whole := (run'.move_of_mem among).2.1
  rw [request] at whole
  have role := (RequestKey.beq_iff.mp keyed).2.1.trans whole
  have comes := (run'.aims steady (same ▸ fresh) registered' f there).comes stage role
  exact (comes.of_beq keyed).mono later

end

theorem not_mixed_of_beq {k l : RequestKey} (same : (k == l) = true) : ¬ Mixed s k l := by
  intro mixed
  obtain ⟨_, _, network⟩ := RequestKey.beq_iff.mp same
  obtain ⟨n, ⟨one, two⟩ | ⟨one, two⟩, _⟩ := mixed <;> rw [one, two] at network <;> cases network

theorem alone_of_solo (steady : answers.Steady s) {ttl : Duration} {r : PriceResult}
    (solo : Solo s ttl key r) : r = answers.alone s key := by
  obtain ⟨moves, d, m, run, fresh, registered, member, request, only, given⟩ := solo
  cases run.comes_of_given steady fresh registered member request given with
  | own => rfl
  | lent found lends =>
    cases lends with
    | own => rw [Answers.alone, found]
    | other whole met mixed _ _ _ =>
      obtain ⟨n, among, _, _, g, there, _, _, _, same⟩ := met
      obtain ⟨earlier, run', subset⟩ := run.before among
      have role := (RequestKey.beq_iff.mp same).2.1.trans whole
      obtain ⟨n', among', request'⟩ := run'.asked_of_whole there role
      cases only n' (subset n' among') _ request'
      cases request.symm.trans request'
      exact absurd mixed (not_mixed_of_beq same)

theorem solo_iff (steady : answers.Steady s) {ttl : Duration} {floor : Floor ω}
    (fresh : floor.listings = { ttl }) (whole : key.role = .whole) {r : PriceResult} :
    Solo s ttl key r ↔ r = answers.alone s key := by
  refine ⟨alone_of_solo steady, ?_⟩
  rintro rfl
  obtain ⟨e, step⟩ : ∃ e, step s { floor } (.request key) = some e := ⟨_, rfl⟩
  obtain ⟨m, asks⟩ : ∃ m : Move ω, m = ⟨{ floor }, .request key, e⟩ := ⟨_, rfl⟩
  have request : m.action = .request key := by rw [asks]
  have run : Run s [m] e := by
    rw [asks]
    exact (Run.start floor).move whole step
  have fresh' : (opened [m] e).floor.listings = { ttl } := by
    rw [asks]
    exact fresh
  have registered : ∀ n ∈ [m], n.IsRegistered s := by
    intro n among ps surveys
    cases List.mem_singleton.mp among
    cases request.symm.trans surveys
  have patient : ∀ n ∈ [m], n.IsPatient := by
    intro n among c drops
    cases List.mem_singleton.mp among
    cases request.symm.trans drops
  obtain ⟨moves', e', r, serves, given⟩ :=
    run.served fresh' patient List.mem_cons_self request
  have solo : Solo s ttl key r := by
    refine ⟨moves', e', m, serves.run run, serves.opened_eq ▸ fresh',
      serves.all_of_work registered fun _ => Move.isRegistered_of_isWork s,
      serves.subset List.mem_cons_self, request, fun n among k request' => ?_, given⟩
    rcases serves.mem_or_isWork among with first | isWork
    · exact List.mem_singleton.mp first
    · rw [request'] at isWork
      cases isWork
  exact alone_of_solo steady solo ▸ solo

structure Transparent (answers : Answers ω) (s : Setup ω) (ttl : Duration) (moves : List (Move ω))
    (d : Desk ω) (m : Move ω) (key : RequestKey) : Prop where
  served : (∀ n ∈ moves, n.IsPatient) →
    ∃ moves' e r, Serves s moves d moves' e ∧ m.Given moves' r
  bounded : ∃ n, ∀ moves' e, Serves s moves d moves' e → moves'.countP (·.action.isStep) ≤ n
  /-- The result is the one which the request is given when it is the only one, or else its second
  leg is one that a mixed request lent it. -/
  given : ∀ r, m.Given moves r → Solo s ttl key r ∨ ∃ first second other,
    answers.found s key = some (.converted first second) ∧ other ≠ second ∧
      Lends answers s moves key second other ∧
        r = answers.price s key.pair (some (.converted first other))
  solo : ∀ r, Solo s ttl key r ↔ r = answers.alone s key

/-- However requests share flights, each caller is given the result that its request has by itself,
but for second legs that mixed requests have in common. -/
theorem sharing_is_transparent (steady : answers.Steady s) (run : Run s moves d) {ttl : Duration}
    (fresh : (opened moves d).floor.listings = { ttl })
    (registered : ∀ m ∈ moves, m.IsRegistered s) {m : Move ω} (member : m ∈ moves)
    (request : m.action = .request key) : Transparent answers s ttl moves d m key := by
  have whole : key.role = .whole := by
    have isPublic := (run.move_of_mem member).2.1
    rw [request] at isPublic
    exact isPublic
  have solo : ∀ r, Solo s ttl key r ↔ r = answers.alone s key := fun r =>
    solo_iff steady fresh whole
  refine ⟨fun patient => run.served fresh patient member request, ?bounded,
    ?given, solo⟩
  case bounded =>
    refine ⟨moves.countP (·.action.isStep) + d.work s, fun moves' e serves => ?_⟩
    exact Nat.le_trans (Nat.le_add_right _ _) (run.steps_le serves)
  case given =>
    intro r given
    cases run.comes_of_given steady fresh registered member request given with
    | own => exact .inl ((solo _).mpr rfl)
    | @lent first second other found lends =>
      by_cases same : other = second
      · subst same
        refine .inl ((solo _).mpr ?_)
        rw [Answers.alone, found]
      · exact .inr ⟨first, second, other, found, same, lends, rfl⟩

def promptQuoter (id : String) (priority : Int) (direct : Bool)
    (prices : List (AssetPair × Decimal)) : Provider Unit where
  id
  network := ⟨"Prompt"⟩
  title := id
  priority
  direct
  listing := some fun _ _ world => (.now (.ok (.ofList (prices.map (·.1)))), world)
  pricing := some
    { features := {}
      call := fun _ _ _ world =>
        (.now (.ok { quotes := prices.map fun (pair, price) =>
          { network := ⟨"Prompt"⟩, pair, price } }), world) }

def promptAnswers : Answers Unit where
  listing p :=
    match p.listing with
    | some call => (call none 0 ()).1.outcome
    | none => .error .noProvidersAvailable
  quotes p requested :=
    match p.pricing with
    | some pricing => (pricing.call requested none 0 ()).1.outcome
    | none => .error .noProvidersAvailable

structure IsPrompt (p : Provider Unit) : Prop where
  listing : ∀ call, p.listing = some call → ∃ l, call = fun _ _ world => (.now (.ok l), world)
  pricing : ∀ pricing, p.pricing = some pricing →
    ∃ quotes : RequestedPairs → Quotes,
      pricing.call = fun requested _ _ world => (.now (.ok (quotes requested)), world)

theorem isPrompt_quoter (id : String) (priority : Int) (direct : Bool)
    (prices : List (AssetPair × Decimal)) : IsPrompt (promptQuoter id priority direct prices) where
  listing := by
    rintro _ ⟨⟩
    exact ⟨_, rfl⟩
  pricing := by
    rintro _ ⟨⟩
    exact ⟨_, rfl⟩

theorem prompt_steady {s : Setup Unit} (prompt : ∀ p ∈ s.registry.providers, IsPrompt p) :
    promptAnswers.Steady s where
  listing := by
    intro p member call has now world
    obtain ⟨l, rfl⟩ := (prompt p member).listing call has
    simp only [promptAnswers, has]
    refine ⟨rfl, now, rfl, fun cutoff given => ?_⟩
    cases given
    exact Nat.le_add_right _ _
  quotes := by
    intro p member pricing has requested now world
    obtain ⟨quotes, calls⟩ := (prompt p member).pricing pricing has
    simp only [promptAnswers, has, calls]
    refine ⟨rfl, now, rfl, fun cutoff given => ?_⟩
    cases given
    exact Nat.le_add_right _ _

theorem two_lt : 2 < twoTo 96 := by decide

def two : Decimal := ⟨false, 2, 0, two_lt, Decimal.one.scale_le⟩

def rivals : List (Provider Unit) :=
  [promptQuoter "proxy" 1 false [(.of "BTC" "USD", .one)],
    promptQuoter "prompt" 2 true [(.of "XRP" "BTC", .one), (.of "BTC" "USD", two)]]

def rivalSetup : Setup Unit where
  registry :=
    ⟨rivals, .cons (by simp [Provider.NoWorse, promptQuoter]) (List.pairwise_singleton _ _),
      .cons (by simp [promptQuoter]) (List.pairwise_singleton _ _)⟩
  listingTimeout := 1
  quoteTimeout := 1

/-- A request that names their network, and is priced by the go-between if it is the only one. -/
def rivalKey : RequestKey := { pair := .of "XRP" "USD", network := some ⟨"Prompt"⟩ }

def directPrice : LatestPrice where
  pair := .of "XRP" "USD"
  price := two
  network := ⟨"Prompt"⟩
  isReversed := false
  via := some ⟨.of "BTC", ⟨"Prompt"⟩⟩

theorem rivals_steady : promptAnswers.Steady rivalSetup := by
  apply prompt_steady
  intro p member
  simp only [rivalSetup, rivals, List.mem_cons, List.not_mem_nil, or_false] at member
  rcases member with rfl | rfl <;> exact isPrompt_quoter _ _ _ _

theorem rival_run : ∃ moves d m, Run rivalSetup moves d ∧
    (opened moves d).floor.listings = { ttl := 1 } ∧
    (∀ n ∈ moves, n.IsRegistered rivalSetup ∧ n.IsPatient) ∧ m ∈ moves ∧
    m.action = .request rivalKey ∧ m.Given moves (.ok directPrice) := by
  have asked := Run.start (s := rivalSetup) promptFloor
    |>.move (a := .request { rivalKey with network := none }) rfl rfl
    |>.move (a := .request rivalKey) rfl rfl
  have serves := Serves.of asked
    |>.step (a := .lookup (.flight 0) 0) trivial rfl
    |>.step (a := .lookup (.flight 0) 0) trivial rfl
    |>.step (a := .lookup (.flight 0) 0) trivial rfl
    |>.step (a := .lookup (.flight 1) 0) trivial rfl
    |>.step (a := .lookup (.flight 1) 0) trivial rfl
    |>.step (a := .lookup (.flight 1) 0) trivial rfl
    |>.step (a := .lookup (.flight 1) 1) trivial rfl
    |>.step (a := .lookup (.flight 1) 1) trivial rfl
    |>.step (a := .advance 0) trivial rfl
    |>.step (a := .advance 1) trivial rfl
    |>.step (a := .advance 4) trivial rfl
    |>.step (a := .advance 4) trivial rfl
    |>.step (a := .advance 3) trivial rfl
    |>.step (a := .advance 3) trivial rfl
    |>.step (a := .advance 1) trivial rfl
    |>.step (a := .collect 1) trivial rfl
  refine ⟨_, _, _, serves.run asked, rfl, serves.all_of_work ?calm ?work,
    serves.subset (.tail _ (.head _)), rfl, ?given⟩
  case given => exact ⟨_, List.mem_append_right _ List.mem_cons_self, rfl, rfl⟩
  case work =>
    intro n isWork
    exact ⟨Move.isRegistered_of_isWork _ isWork, Move.isPatient_of_isWork isWork⟩
  case calm =>
    intro n among
    simp only [List.nil_append, List.cons_append, List.mem_cons, List.not_mem_nil, or_false]
      at among
    rcases among with rfl | rfl <;>
      exact ⟨fun _ surveys => (nomatch surveys), fun _ drops => (nomatch drops)⟩

/-- The price of a request may depend on whom it shares its second leg with, although all providers
always answer alike. -/
theorem rival_leg_is_lent : ∃ moves d m, promptAnswers.Steady rivalSetup ∧
    Run rivalSetup moves d ∧ (opened moves d).floor.listings = { ttl := 1 } ∧
    (∀ n ∈ moves, n.IsRegistered rivalSetup ∧ n.IsPatient) ∧ m ∈ moves ∧
    m.action = .request rivalKey ∧ m.Given moves (.ok directPrice) ∧
    Solo rivalSetup 1 rivalKey (.ok { directPrice with price := .one }) ∧
    ¬ Solo rivalSetup 1 rivalKey (.ok directPrice) := by
  obtain ⟨moves, d, m, run, fresh, calm, member, request, given⟩ := rival_run
  have alone : promptAnswers.alone rivalSetup rivalKey =
      .ok { directPrice with price := .one } := by rfl
  have solo : ∀ r, Solo rivalSetup 1 rivalKey r ↔ r = .ok { directPrice with price := .one } := by
    intro r
    rw [← alone]
    exact solo_iff rivals_steady fresh rfl
  refine ⟨moves, d, m, rivals_steady, run, fresh, calm, member, request, given, (solo _).mpr rfl,
    fun given' => ?_⟩
  have same := Except.ok.inj ((solo _).mp given')
  have prices := congrArg (fun price : LatestPrice => price.price.mantissa) same
  cases prices

/-- What the desk does there is all that it ever does. -/
theorem rival_is_given_a_lent_leg : ∃ moves d m, promptAnswers.Steady rivalSetup ∧
    Run rivalSetup moves d ∧ m.Given moves (.ok directPrice) ∧
    Transparent promptAnswers rivalSetup 1 moves d m rivalKey := by
  obtain ⟨moves, d, m, run, fresh, calm, member, request, given⟩ := rival_run
  have registered := fun n among => (calm n among).1
  exact ⟨moves, d, m, rivals_steady, run, given,
    sharing_is_transparent rivals_steady run fresh registered member request⟩

end Desk

end PriceDesk
