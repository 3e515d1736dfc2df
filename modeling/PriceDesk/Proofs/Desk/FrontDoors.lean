import PriceDesk.Proofs.Desk.AtRest
import PriceDesk.Proofs.Desk.Failover
import PriceDesk.Proofs.Desk.Sharing

namespace PriceDesk

variable {ω : Type}

namespace Discovery

variable {options : DiscoveryOptions} {registry : Registry ω} {pair : AssetPair}
  {answer : Provider ω → Except MarketError Listing} {network : Option Network} {leg : Leg}

theorem plain_of_search {cs : List Candidate} (gives : search options pair cs = some (.plain leg)) :
    leg.pair = pair ∧ (leg.isReversed = true → findDirect pair cs = none) := by
  cases searched gives with
  | direct found =>
    obtain ⟨c, _, rfl⟩ := Option.map_eq_some_iff.mp found
    exact ⟨rfl, nofun⟩
  | reversed nobody found =>
    obtain ⟨c, _, rfl⟩ := Option.map_eq_some_iff.mp found
    exact ⟨rfl, fun _ => nobody⟩

theorem plain_of_found (gives : found options registry answer pair network = some (.plain leg)) :
    leg.pair = pair ∧ (leg.isReversed = true →
      ∀ c ∈ lineup options registry answer network, c.listing.contains pair = false) := by
  cases proper : pair.isDegenerate with
  | true =>
    rw [found_of_isDegenerate proper] at gives
    cases gives
  | false =>
    rw [found_eq proper] at gives
    obtain ⟨same, nobody⟩ := plain_of_search gives
    refine ⟨same, fun reversed c member => ?_⟩
    have missing := List.find?_eq_none.mp (Option.map_eq_none_iff.mp (nobody reversed)) c member
    exact Bool.eq_false_iff.mpr missing

theorem mem_lineup {p : Provider ω} {l : Listing} (direct : p ∈ registry.direct .pricing)
    (lists : p.listing.isSome = true) (listed : answer p = .ok l) :
    candidate (p, l) ∈ lineup options registry answer none := by
  obtain ⟨having, isDirect⟩ := List.mem_filter.mp direct
  obtain ⟨registered, quotes⟩ := mem_having.mp having
  refine List.mem_filterMap.mpr ⟨p, List.mem_filter.mpr ⟨?_, ?_⟩, by rw [listed]; rfl⟩
  · exact mem_considered.mpr ⟨⟨registered, lists⟩, isDirect⟩
  · exact isPriced_iff.mpr fun _ => ⟨p, registered, quotes, BEq.rfl⟩

end Discovery

namespace Answers

variable (answers : Answers ω) (s : Setup ω)

def worth (leg : Leg) (p : Provider ω) : PriceResult :=
  (answers.quotes p (leg.question p)).bind (Desk.priceOf leg p.id)

/-- Whether the price of a leg is this provider's answer: those who are asked before it have failed
where another one may do better. -/
structure PricedBy (leg : Leg) (p : Provider ω) (lp : LatestPrice) : Prop where
  turn : ∃ before after, Desk.opening.askOrder s leg = before ++ p :: after ∧
    ∀ q ∈ before, ∃ e, answers.worth leg q = .error e ∧ e.isFinal = false
  worth : answers.worth leg p = .ok lp

def NamesItself (p : Provider ω) : Prop :=
  ∀ requested quotes, answers.quotes p requested = .ok quotes →
    ∀ q ∈ quotes.quotes, (q.network == p.network) = true

variable {answers s} {leg : Leg} {lp : LatestPrice}

theorem ask_cons {p : Provider ω} {queue : List (Provider ω)} {failure : MarketError}
    (quotes : p.pricing.isSome = true) :
    answers.ask leg (p :: queue) failure =
      match answers.worth leg p with
      | .ok price => .ok price
      | .error e => if e.isFinal then .error e else answers.ask leg queue e := by
  obtain ⟨pricing, has⟩ := Option.isSome_iff_exists.mp quotes
  rw [worth, Leg.question_eq has]
  simp only [ask, has]
  rfl

theorem exists_of_ask {queue : List (Provider ω)} {failure : MarketError}
    (quotes : ∀ p ∈ queue, p.pricing.isSome = true)
    (priced : answers.ask leg queue failure = .ok lp) :
    ∃ before p after, queue = before ++ p :: after ∧
      (∀ q ∈ before, ∃ e, answers.worth leg q = .error e ∧ e.isFinal = false) ∧
      answers.worth leg p = .ok lp := by
  induction queue generalizing failure with
  | nil => cases priced
  | cons p queue ih =>
    rw [ask_cons (quotes p List.mem_cons_self)] at priced
    cases own : answers.worth leg p with
    | ok price =>
      rw [own] at priced
      cases priced
      exact ⟨[], p, queue, rfl, List.forall_mem_nil _, own⟩
    | error e =>
      simp only [own] at priced
      split at priced
      · cases priced
      · next mendable =>
        obtain ⟨before, q, after, rfl, failed, gives⟩ :=
          ih (fun q member => quotes q (List.mem_cons_of_mem _ member)) priced
        refine ⟨p :: before, q, after, rfl, fun r member => ?_, gives⟩
        rcases List.mem_cons.mp member with rfl | later
        · exact ⟨e, own, Bool.eq_false_iff.mpr mendable⟩
        · exact failed r later

theorem exists_pricedBy (priced : answers.legPrice s leg = .ok lp) :
    ∃ p, answers.PricedBy s leg p lp := by
  obtain ⟨before, p, after, order, failed, gives⟩ :=
    exists_of_ask (fun _ => Desk.quotes_of_askOrder) priced
  exact ⟨p, ⟨before, after, order, failed⟩, gives⟩

theorem PricedBy.onNetwork {p : Provider ω} (by_ : answers.PricedBy s leg p lp) :
    p ∈ s.registry.onNetwork leg.network .pricing := by
  obtain ⟨before, after, order, _⟩ := by_.turn
  refine Desk.onNetwork_of_askOrder (s := s) ?_
  rw [order]
  exact List.mem_append_right _ List.mem_cons_self

end Answers

namespace Desk

variable {s : Setup ω} {answers : Answers ω} {d e : Desk ω} {moves : List (Move ω)}
  {pair : AssetPair} {leg : Leg} {lp : LatestPrice} {p : Provider ω}

theorem legPrice_of_comes {key : RequestKey} (found : answers.found s key = some (.plain leg))
    {r : PriceResult} (comes : Comes answers s moves key r) : r = answers.legPrice s leg := by
  cases comes with
  | own =>
    rw [Answers.alone, found]
    rfl
  | lent converted _ =>
    rw [found] at converted
    cases converted

theorem covered_of_found (found : answers.found s { pair } = some (.plain leg))
    (direct : p ∈ s.registry.direct .pricing) {l : Listing} (listed : answers.listed p = .ok l)
    (there : l.contains leg.providerPair = true) :
    ∃ covered, answers.coverage s pair .pricing = .ok covered ∧ (p, leg.isReversed) ∈ covered := by
  obtain ⟨rfl, nobody⟩ := Discovery.plain_of_found found
  have covers : covers? leg.pair (p, l) = some (p, leg.isReversed) := by
    unfold Leg.providerPair at there
    cases reversed : leg.isReversed with
    | false =>
      simp only [reversed, Bool.false_eq_true, if_false] at there
      simp only [covers?, there, if_true]
    | true =>
      simp only [reversed, if_true] at there
      -- Had it listed the pair as it stands, discovery would have found it in that direction.
      obtain ⟨lists, answer⟩ := Answers.listed_eq_ok.mp listed
      have missing : l.contains leg.pair = false :=
        nobody reversed _ (Discovery.mem_lineup direct lists answer)
      simp only [covers?, missing, PairSet.containsReversed, there, Bool.false_eq_true, if_false,
        if_true]
  have somebody : (s.registry.direct .pricing).isEmpty = false :=
    List.isEmpty_eq_false_iff_exists_mem.mpr ⟨p, direct⟩
  obtain ⟨covered, coverage⟩ : ∃ covered, answers.coverage s leg.pair .pricing = .ok covered := by
    simp only [Answers.coverage, somebody, Bool.false_eq_true, if_false]
    exact ⟨_, rfl⟩
  exact ⟨covered, coverage, (Answers.mem_coverage coverage).mpr ⟨l, direct, listed, covers⟩⟩

theorem quoteFrom_of_priceOf {id : String} {quotes : Quotes}
    (priced : priceOf leg id quotes = .ok lp) :
    ∃ read q, quotes.get? leg.providerPair = some read ∧
      quoteFrom leg.pair leg.isReversed quotes = .ok q ∧ q.pair = leg.pair ∧
      q.price = lp.price ∧ q.network = read.network := by
  obtain ⟨_, _, _, _, read, there, price⟩ := priceOf_eq_ok priced
  have named : read.pair = leg.providerPair := by
    simpa using List.find?_some there
  have takes : quoteFrom leg.pair leg.isReversed quotes =
      if leg.isReversed then read.reversed else .ok read := by
    have asked : listedPair leg.pair leg.isReversed = leg.providerPair := rfl
    simp only [quoteFrom, asked, there]
  unfold Leg.providerPair at named
  cases reversed : leg.isReversed with
  | false =>
    simp only [reversed, Bool.false_eq_true, if_false] at price takes named
    exact ⟨read, read, there, takes, named, price.symm, rfl⟩
  | true =>
    simp only [reversed, if_true] at price takes named
    simp only [Quote.reversed, price] at takes
    refine ⟨read, _, there, takes, ?_, rfl, rfl⟩
    rw [named, AssetPair.reversed_reversed]

theorem keepSuccesses_of_mem {α : Type} {results : List (Except MarketError α)} {a : α}
    (member : .ok a ∈ results) : ∃ kept, keepSuccesses results = .ok kept ∧ a ∈ kept := by
  have among : a ∈ results.filterMap Except.toOption := List.mem_filterMap.mpr ⟨_, member, rfl⟩
  refine ⟨_, ?_, among⟩
  simp [keepSuccesses, List.isEmpty_eq_false_iff_exists_mem.mpr ⟨a, among⟩]

/-- A provider that gives the price of a leg gives a quote of it when it is asked as one that
covers the pair in that direction. -/
theorem quoted_of_pricedBy (by_ : answers.PricedBy s leg p lp) :
    ∃ q, (answers.asked leg.pair (p, leg.isReversed)).bind (quoteFrom leg.pair leg.isReversed) =
        .ok q ∧ q.pair = leg.pair ∧ q.price = lp.price ∧
      (answers.NamesItself p → (q.network == leg.network) = true) := by
  obtain ⟨having, on⟩ := List.mem_filter.mp by_.onNetwork
  obtain ⟨pricing, has⟩ := Option.isSome_iff_exists.mp (Discovery.mem_having.mp having).2
  have asked : answers.asked leg.pair (p, leg.isReversed) = answers.quotes p (leg.question p) := by
    simp only [Answers.asked, has, Leg.question_eq has]
    rfl
  have worth := by_.worth
  unfold Answers.worth at worth
  rw [asked]
  cases answer : answers.quotes p (leg.question p) with
  | error e =>
    rw [answer] at worth
    cases worth
  | ok quotes =>
    rw [answer] at worth
    obtain ⟨read, q, got, takes, own, price, network⟩ := quoteFrom_of_priceOf worth
    refine ⟨q, takes, own, price, fun names => ?_⟩
    rw [network]
    exact BEq.trans (names _ _ answer read (List.mem_of_find?_eq_some got)) on

/-- How the quotes for a pair bear out its latest price, which was found so. -/
structure BearsOut (answers : Answers ω) (s : Setup ω) (pair : AssetPair) (leg : Leg)
    (lp : LatestPrice) (p : Provider ω) : Prop where
  priced : answers.PricedBy s leg p lp
  /-- If it lists the pair in the direction that was found, its quote is among the quotes for the
  pair, whenever these are asked for. -/
  quoted : ∀ l, answers.listed p = .ok l → l.contains leg.providerPair = true →
    ∀ e, Used s e → ∃ quotes q, (quotesForPair s e pair).1 = .ok quotes ∧ q ∈ quotes ∧
      q.pair = pair ∧ q.price = lp.price ∧
      (answers.NamesItself p → (q.network == leg.network) = true)

/-- Where all providers ask their networks themselves, the latest price of a pair that discovery
finds without conversion is borne out by the quotes for the pair, if its provider lists it. -/
theorem quotes_bear_out_price (steady : answers.Steady s)
    (direct : ∀ p ∈ s.registry.providers, p.direct = true) (used : Used s d)
    (found : (discover s d pair none).1.1 = some (.plain leg)) {c : Desk ω} (run : Run s moves c)
    {ttl : Duration} (fresh : (opened moves c).floor.listings = { ttl })
    (registered : ∀ m ∈ moves, m.IsRegistered s) {m : Move ω} (member : m ∈ moves)
    (request : m.action = .request { pair }) (given : m.Given moves (.ok lp)) :
    ∃ p, BearsOut answers s pair leg lp p := by
  rw [used.discover_eq steady] at found
  have price := legPrice_of_comes found
    (run.comes_of_given steady fresh registered member request given)
  obtain ⟨p, by_⟩ := Answers.exists_pricedBy price.symm
  refine ⟨p, by_, fun l listed there e used' => ?_⟩
  have having := (List.mem_filter.mp by_.onNetwork).1
  have isDirect := direct p (Discovery.mem_having.mp having).1
  obtain ⟨covered, coverage, among⟩ :=
    covered_of_found found (List.mem_filter.mpr ⟨having, isDirect⟩) listed there
  obtain rfl : leg.pair = pair := (Discovery.plain_of_found found).1
  obtain ⟨q, quoted, own, same, named⟩ := quoted_of_pricedBy by_
  have succeeds : .ok q ∈ covered.map fun x =>
      (answers.asked leg.pair x).bind (quoteFrom leg.pair x.2) :=
    List.mem_map.mpr ⟨_, among, quoted⟩
  obtain ⟨kept, keeps, there'⟩ := keepSuccesses_of_mem succeeds
  refine ⟨kept, q, ?_, there', own, same, named⟩
  rw [used'.quotesForPair_eq steady, Answers.quotesForPair, coverage]
  exact keeps

def lister : Provider Unit :=
  { promptQuoter "lister" 1 true [(.of "BTC" "USD", .one)] with pricing := none }

def pricer : Provider Unit := promptQuoter "pricer" 2 true [(.of "BTC" "USD", two)]

def listerSetup (p : Provider Unit) (ordered : lister.NoWorse p) (differs : lister.id ≠ p.id) :
    Setup Unit where
  registry := ⟨[lister, p], .cons (by simpa) (List.pairwise_singleton _ _),
    .cons (by simpa) (List.pairwise_singleton _ _)⟩
  listingTimeout := 1
  quoteTimeout := 1

section Lister

variable {p : Provider Unit} {ordered : lister.NoWorse p} {differs : lister.id ≠ p.id}

theorem forall_listerSetup {P : Provider Unit → Prop} (first : P lister) (second : P p) :
    ∀ q ∈ (listerSetup p ordered differs).registry.providers, P q := by
  intro q member
  simp only [listerSetup, List.mem_cons, List.not_mem_nil, or_false] at member
  rcases member with rfl | rfl
  · exact first
  · exact second

theorem listerSetup_steady (prompt : IsPrompt p) :
    promptAnswers.Steady (listerSetup p ordered differs) :=
  prompt_steady (forall_listerSetup ⟨(isPrompt_quoter "lister" 1 true _).listing, nofun⟩ prompt)

end Lister

def splitSetup : Setup Unit :=
  listerSetup { pricer with listing := none }
    (by simp [Provider.NoWorse, lister, pricer, promptQuoter]) (by decide)

def pricerSetup : Setup Unit :=
  listerSetup pricer (by simp [Provider.NoWorse, lister, pricer, promptQuoter]) (by decide)

def coinKey : RequestKey := { pair := .of "BTC" "USD" }

def listedLeg : Leg where
  provider := "lister"
  network := ⟨"Prompt"⟩
  pair := coinKey.pair
  isReversed := false

def listedPrice : LatestPrice where
  pair := coinKey.pair
  price := two
  network := ⟨"Prompt"⟩
  isReversed := false

def askedDesk (s : Setup Unit) : Desk Unit :=
  Operation.performAll s { floor := promptFloor } [.discover coinKey.pair none, .prices [coinKey]]

theorem used_promptDesk (s : Setup Unit) : Used s { floor := promptFloor } where
  history := ⟨promptFloor, 1, [], rfl, List.forall_mem_nil _, rfl⟩
  rests := ⟨rfl, List.forall_mem_nil _⟩

theorem used_askedDesk {s : Setup Unit} (alone : (askedDesk s).callers = [])
    (done : (askedDesk s).flights = []) : Used s (askedDesk s) where
  history := ⟨promptFloor, 1, _, rfl, by simp [Operation.Enrolled], rfl⟩
  rests := ⟨alone, done ▸ List.forall_mem_nil _⟩

/-- A pair may have a latest price and no quotes, although all providers ask their networks
themselves and always answer alike. -/
theorem split_work_gives_no_quotes :
    promptAnswers.Steady splitSetup ∧ (∀ p ∈ splitSetup.registry.providers, p.direct = true) ∧
      Used splitSetup { floor := promptFloor } ∧
      (discover splitSetup { floor := promptFloor } coinKey.pair none).1.1 =
        some (.plain listedLeg) ∧
      Solo splitSetup 1 coinKey (.ok listedPrice) ∧ Used splitSetup (askedDesk splitSetup) ∧
      (quotesForPair splitSetup (askedDesk splitSetup) coinKey.pair).1 = .ok [] := by
  have steady : promptAnswers.Steady splitSetup :=
    listerSetup_steady ⟨nofun, (isPrompt_quoter "pricer" 2 true _).pricing⟩
  have solo : Solo splitSetup 1 coinKey (.ok listedPrice) :=
    (solo_iff steady (show promptFloor.listings = { ttl := 1 } from rfl) rfl).mpr (by rfl)
  exact ⟨steady, forall_listerSetup rfl rfl, used_promptDesk _, by rfl, solo,
    used_askedDesk rfl rfl, by rfl⟩

theorem eq_pricer {p : Provider Unit} {lp : LatestPrice}
    (by_ : promptAnswers.PricedBy pricerSetup listedLeg p lp) : p = pricer := by
  obtain ⟨before, after, order, _⟩ := by_.turn
  have only : opening.askOrder pricerSetup listedLeg = [pricer] := by rfl
  have member : p ∈ before ++ p :: after := List.mem_append_right _ List.mem_cons_self
  rw [← order, only] at member
  exact List.mem_singleton.mp member

/-- The second of two providers gives the price of a pair that both list, and the quotes for it tell
of that price. -/
theorem pricer_bears_out_price :
    promptAnswers.Steady pricerSetup ∧ (∀ p ∈ pricerSetup.registry.providers, p.direct = true) ∧
      Used pricerSetup { floor := promptFloor } ∧
      (discover pricerSetup { floor := promptFloor } coinKey.pair none).1.1 =
        some (.plain listedLeg) ∧
      Solo pricerSetup 1 coinKey (.ok listedPrice) ∧
      BearsOut promptAnswers pricerSetup coinKey.pair listedLeg listedPrice pricer ∧
      ∃ quotes q, (quotesForPair pricerSetup (askedDesk pricerSetup) coinKey.pair).1 = .ok quotes ∧
        q ∈ quotes ∧ q.price = two ∧ (q.network == listedLeg.network) = true := by
  have steady : promptAnswers.Steady pricerSetup := listerSetup_steady (isPrompt_quoter _ _ _ _)
  have direct : ∀ p ∈ pricerSetup.registry.providers, p.direct = true := forall_listerSetup rfl rfl
  have used := used_promptDesk pricerSetup
  have found : (discover pricerSetup { floor := promptFloor } coinKey.pair none).1.1 =
      some (.plain listedLeg) := by rfl
  have solo : Solo pricerSetup 1 coinKey (.ok listedPrice) :=
    (solo_iff steady (show promptFloor.listings = { ttl := 1 } from rfl) rfl).mpr (by rfl)
  obtain ⟨moves, c, m, run, fresh, registered, member, request, only, given⟩ := solo
  obtain ⟨p, bears⟩ := quotes_bear_out_price steady direct used found run fresh registered member
    request given
  cases eq_pricer bears.priced
  have names : promptAnswers.NamesItself pricer := by
    intro requested quotes answer q among
    cases answer
    cases List.mem_singleton.mp among
    rfl
  obtain ⟨quotes, q, quoted, among, _, price, named⟩ :=
    bears.quoted _ rfl rfl (askedDesk pricerSetup) (used_askedDesk rfl rfl)
  exact ⟨steady, direct, used, found,
    ⟨moves, c, m, run, fresh, registered, member, request, only, given⟩, bears, quotes, q, quoted,
    among, price, named names⟩

end Desk

end PriceDesk
