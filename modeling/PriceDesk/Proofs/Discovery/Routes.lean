import PriceDesk.Discovery.Search

namespace PriceDesk.Discovery

variable {ω : Type}

section Finds

variable {ρ σ β γ : Type} {P Q : ρ → Prop} {NoWorse : ρ → ρ → Prop} {view : ρ → β}
  {x y : Option β}

/-- Whether a search gives the view of a preferred solution, or nothing where there is none. -/
def Finds (P : ρ → Prop) (NoWorse : ρ → ρ → Prop) (view : ρ → β) : Option β → Prop
  | none => ∀ r, ¬ P r
  | some b => ∃ r, P r ∧ (∀ r', P r' → NoWorse r r') ∧ view r = b

namespace Finds

theorem congr (one : Finds P NoWorse view x) (same : ∀ r, P r ↔ Q r) :
    Finds Q NoWorse view x := by
  have equal : P = Q := funext fun r => propext (same r)
  exact equal ▸ one

theorem or (one : Finds P NoWorse view x) (two : Finds Q NoWorse view y)
    (before : ∀ a b, P a → Q b → NoWorse a b) :
    Finds (fun r => P r ∨ Q r) NoWorse view (x.or y) := by
  cases x with
  | none =>
    refine two.congr fun r => ?_
    exact ⟨.inr, fun either => either.resolve_left (one r)⟩
  | some b =>
    obtain ⟨r, found, preferred, rfl⟩ := one
    refine ⟨r, .inl found, ?_, rfl⟩
    intro r' either
    rcases either with sooner | later
    · exact preferred r' sooner
    · exact before r r' found later

theorem onlyIf (enabled : Bool) (one : Finds P NoWorse view x) :
    Finds (fun r => enabled = true ∧ P r) NoWorse view (if enabled then x else none) := by
  cases enabled with
  | true => exact one.congr fun r => ⟨fun found => ⟨rfl, found⟩, And.right⟩
  | false => exact fun r closed => Bool.noConfusion closed.1

theorem map (one : Finds P NoWorse view x) (NoWorse' : σ → σ → Prop) (view' : σ → γ)
    (wrap : ρ → σ) (f : β → γ) (views : ∀ r, view' (wrap r) = f (view r))
    (keeps : ∀ a b, NoWorse a b → NoWorse' (wrap a) (wrap b)) :
    Finds (fun t => ∃ r, wrap r = t ∧ P r) NoWorse' view' (x.map f) := by
  cases x with
  | none =>
    intro _ given
    obtain ⟨r, _, found⟩ := given
    exact one r found
  | some b =>
    obtain ⟨r, found, preferred, rfl⟩ := one
    refine ⟨wrap r, ⟨r, rfl, found⟩, ?_, views r⟩
    intro _ given
    obtain ⟨r', rfl, found'⟩ := given
    exact keeps r r' (preferred r' found')

end Finds

end Finds

/-- A provider that may be asked for a pair, as it stands or reversed. -/
structure Offer (ω : Type) where
  provider : Provider ω
  pair : AssetPair
  isReversed : Bool

namespace Offer

def listed (o : Offer ω) : AssetPair := if o.isReversed then o.pair.reversed else o.pair

def leg (o : Offer ω) : Leg :=
  { provider := o.provider.id, network := o.provider.network, pair := o.pair,
    isReversed := o.isReversed }

def Open (Admits : Provider ω → Listing → Prop) (o : Offer ω) : Prop :=
  ∃ l, Admits o.provider l ∧ o.listed ∈ l.pairs

def NoWorse (a b : Offer ω) : Prop :=
  (a.isReversed = false ∧ b.isReversed = true) ∨
    (a.isReversed = b.isReversed ∧ a.provider.NoWorse b.provider)

end Offer

/-- Whether two offers lead from the base asset to an intermediary and on to the quote asset. -/
structure Meet (Admits : Provider ω → Listing → Prop) (pair : AssetPair) (intermediary : Asset)
    (first second : Offer ω) : Prop where
  notBase : intermediary ≠ pair.asset1
  notQuote : intermediary ≠ pair.asset2
  firstPair : first.pair = ⟨pair.asset1, intermediary⟩
  secondPair : second.pair = ⟨intermediary, pair.asset2⟩
  firstOpen : first.Open Admits
  secondOpen : second.Open Admits

inductive Route (ω : Type) where
  | plain (offer : Offer ω)
  | converted (position : Nat) (first second : Offer ω)

namespace Route

def toMatch : Route ω → Match
  | .plain offer => .plain offer.leg
  | .converted _ first second => .converted first.leg second.leg

def Open (Admits : Provider ω → Listing → Prop) (options : DiscoveryOptions) (pair : AssetPair) :
    Route ω → Prop
  | .plain offer =>
    offer.pair = pair ∧ (offer.isReversed = true → options.reversalEnabled = true) ∧
      offer.Open Admits
  | .converted position first second =>
    options.conversionEnabled = true ∧
      ∃ i, options.intermediaries[position]? = some i ∧ Meet Admits pair i first second

/-- One offer comes before two, an earlier intermediary before a later one, and of two routes
through one intermediary the one with the preferred offer for each leg. -/
def NoWorse : Route ω → Route ω → Prop
  | .plain a, .plain b => a.NoWorse b
  | .plain _, .converted _ _ _ => True
  | .converted _ _ _, .plain _ => False
  | .converted m a b, .converted n a' b' => m < n ∨ m = n ∧ a.NoWorse a' ∧ b.NoWorse b'

def Best (Admits : Provider ω → Listing → Prop) (options : DiscoveryOptions) (pair : AssetPair)
    (r : Route ω) : Prop :=
  r.Open Admits options pair ∧ ∀ r', Open Admits options pair r' → r.NoWorse r'

end Route

def candidate (q : Provider ω × Listing) : Candidate :=
  { provider := q.1.id, network := q.1.network, listing := q.2 }

theorem has_eq_false_iff {pair : AssetPair} {i : Asset} :
    pair.has i = false ↔ i ≠ pair.asset1 ∧ i ≠ pair.asset2 := by
  simp only [AssetPair.has, Bool.or_eq_false_iff, beq_eq_false_iff_ne]
  exact and_congr ne_comm ne_comm

section Search

variable {qs : List (Provider ω × Listing)} (pair : AssetPair)

theorem finds_offer (sorted : qs.Pairwise fun p q => p.1.NoWorse q.1) (isReversed : Bool) :
    Finds (fun o : Offer ω => o.pair = pair ∧ o.isReversed = isReversed ∧
        o.Open fun p l => (p, l) ∈ qs)
      Offer.NoWorse Offer.leg
      (((qs.map candidate).find?
        (·.listing.contains (if isReversed then pair.reversed else pair))).map
          (leg · pair isReversed)) := by
  rw [List.find?_map, Option.map_map]
  cases search : qs.find?
      ((·.listing.contains (if isReversed then pair.reversed else pair)) ∘ candidate) with
  | none =>
    intro o given
    obtain ⟨rfl, rfl, l, member, lists⟩ := given
    have missed := List.find?_eq_none.mp search _ member
    exact missed (Listing.contains_iff.mpr lists)
  | some q =>
    obtain ⟨lists, before, after, split, passed⟩ := List.find?_eq_some_iff_append.mp search
    have member : q ∈ qs := split ▸ List.mem_append_right _ List.mem_cons_self
    refine ⟨⟨q.1, pair, isReversed⟩,
      ⟨rfl, rfl, q.2, member, Listing.contains_iff.mp lists⟩, ?_, rfl⟩
    intro o given
    obtain ⟨rfl, rfl, l, member', lists'⟩ := given
    refine .inr ⟨rfl, ?_⟩
    -- The other offer does not stand before the first one that was found.
    rw [split] at member' sorted
    rcases List.mem_append.mp member' with sooner | later
    · have missed := Bool.not_eq_true' _ ▸ passed _ sooner
      have contains : l.contains o.listed = true := Listing.contains_iff.mpr lists'
      exact Bool.noConfusion (contains.symm.trans missed)
    · rcases List.mem_cons.mp later with same | later
      · cases same
        exact Provider.NoWorse.refl _
      · have ordered := (List.pairwise_append.mp sorted).2.1
        exact (List.pairwise_cons.mp ordered).1 _ later

theorem finds_findLeg (sorted : qs.Pairwise fun p q => p.1.NoWorse q.1) :
    Finds (fun o : Offer ω => o.pair = pair ∧ o.Open fun p l => (p, l) ∈ qs)
      Offer.NoWorse Offer.leg (findLeg pair (qs.map candidate)) := by
  have direct := finds_offer pair sorted false
  have reversed := finds_offer pair sorted true
  refine (direct.or reversed fun a b one two => .inl ⟨one.2.1, two.2.1⟩).congr fun o => ?_
  constructor
  · intro either
    rcases either with ⟨same, _, lists⟩ | ⟨same, _, lists⟩
    · exact ⟨same, lists⟩
    · exact ⟨same, lists⟩
  · intro given
    obtain ⟨same, lists⟩ := given
    cases direction : o.isReversed with
    | false => exact .inl ⟨same, rfl, lists⟩
    | true => exact .inr ⟨same, rfl, lists⟩

theorem finds_through (sorted : qs.Pairwise fun p q => p.1.NoWorse q.1) (i : Asset) :
    Finds (fun r : Offer ω × Offer ω => Meet (fun p l => (p, l) ∈ qs) pair i r.1 r.2)
      (fun r t => r.1.NoWorse t.1 ∧ r.2.NoWorse t.2)
      (fun r => .converted r.1.leg r.2.leg) (through pair (qs.map candidate) i) := by
  cases outside : pair.has i with
  | true =>
    simp only [through, outside, if_true]
    intro r meet
    have differs := has_eq_false_iff.mpr ⟨meet.notBase, meet.notQuote⟩
    exact Bool.noConfusion (outside.symm.trans differs)
  | false =>
    obtain ⟨notBase, notQuote⟩ := has_eq_false_iff.mp outside
    have firsts := finds_findLeg ⟨pair.asset1, i⟩ sorted
    have seconds := finds_findLeg ⟨i, pair.asset2⟩ sorted
    simp only [through, outside, Bool.false_eq_true, if_false]
    cases first : findLeg ⟨pair.asset1, i⟩ (qs.map candidate) with
    | none =>
      rw [first] at firsts
      exact fun r meet => firsts r.1 ⟨meet.firstPair, meet.firstOpen⟩
    | some a =>
      cases second : findLeg ⟨i, pair.asset2⟩ (qs.map candidate) with
      | none =>
        rw [second] at seconds
        exact fun r meet => seconds r.2 ⟨meet.secondPair, meet.secondOpen⟩
      | some b =>
        rw [first] at firsts
        rw [second] at seconds
        obtain ⟨o, ⟨firstPair, firstOpen⟩, preferred, rfl⟩ := firsts
        obtain ⟨o', ⟨secondPair, secondOpen⟩, preferred', rfl⟩ := seconds
        refine ⟨(o, o'), ⟨notBase, notQuote, firstPair, secondPair, firstOpen, secondOpen⟩,
          ?_, rfl⟩
        intro r meet
        exact ⟨preferred r.1 ⟨meet.firstPair, meet.firstOpen⟩,
          preferred' r.2 ⟨meet.secondPair, meet.secondOpen⟩⟩

theorem finds_findConverted (sorted : qs.Pairwise fun p q => p.1.NoWorse q.1)
    (intermediaries : List Asset) :
    Finds (fun r : Route ω => ∃ n a b, .converted n a b = r ∧
        ∃ i, intermediaries[n]? = some i ∧ Meet (fun p l => (p, l) ∈ qs) pair i a b)
      Route.NoWorse Route.toMatch
      (findConverted pair (qs.map candidate) intermediaries) := by
  unfold findConverted
  cases search : intermediaries.findSome? (through pair (qs.map candidate)) with
  | none =>
    intro _ given
    obtain ⟨n, a, b, _, i, there, meet⟩ := given
    have legs := finds_through pair sorted i
    rw [List.findSome?_eq_none_iff.mp search i (List.mem_of_getElem? there)] at legs
    exact legs (a, b) meet
  | some m =>
    obtain ⟨before, i, after, split, found, passed⟩ := List.findSome?_eq_some_iff.mp search
    have legs := finds_through pair sorted i
    rw [found] at legs
    obtain ⟨⟨a, b⟩, meet, preferred, rfl⟩ := legs
    have position : intermediaries[before.length]? = some i := by
      rw [split, List.getElem?_append_right (Nat.le_refl _), Nat.sub_self, List.getElem?_cons_zero]
    refine ⟨.converted before.length a b, ⟨_, a, b, rfl, i, position, meet⟩, ?_, rfl⟩
    intro _ given
    obtain ⟨n, a', b', rfl, j, there, meet'⟩ := given
    rcases Nat.lt_trichotomy before.length n with later | same | sooner
    · exact .inl later
    · cases same
      cases Option.some.inj (position.symm.trans there)
      exact .inr ⟨rfl, preferred (a', b') meet'⟩
    · rw [split, List.getElem?_append_left sooner] at there
      have legs := finds_through pair sorted j
      rw [passed j (List.mem_of_getElem? there)] at legs
      exact absurd meet' (legs (a', b'))

theorem finds_search (sorted : qs.Pairwise fun p q => p.1.NoWorse q.1)
    (options : DiscoveryOptions) :
    Finds (Route.Open (fun p l => (p, l) ∈ qs) options pair) Route.NoWorse Route.toMatch
      (search options pair (qs.map candidate)) := by
  have direct := (finds_offer pair sorted false).map
    Route.NoWorse Route.toMatch Route.plain Match.plain
    (fun _ => rfl) (fun _ _ better => better)
  have reversed := ((finds_offer pair sorted true).map
    Route.NoWorse Route.toMatch Route.plain Match.plain
    (fun _ => rfl) (fun _ _ better => better)).onlyIf options.reversalEnabled
  have converted :=
    (finds_findConverted pair sorted options.intermediaries).onlyIf
      options.conversionEnabled
  refine (direct.or (reversed.or converted ?_) ?_).congr ?_
  · intro _ _ given given'
    obtain ⟨_, o, rfl, _⟩ := given
    obtain ⟨_, n, a, b, rfl, _⟩ := given'
    exact trivial
  · intro _ _ given either
    obtain ⟨o, rfl, _, forwards, _⟩ := given
    rcases either with ⟨_, o', rfl, _, backwards, _⟩ | ⟨_, n, a, b, rfl, _⟩
    · exact .inl ⟨forwards, backwards⟩
    · exact trivial
  -- A route is open if one of the three passes looks for it.
  intro r
  cases r with
  | plain o =>
    constructor
    · intro either
      rcases either with ⟨_, same, fits, direction, lists⟩ |
        ⟨enabled, _, same, fits, direction, lists⟩ | ⟨_, _, _, _, same, _⟩
      · cases same
        exact ⟨fits, fun backwards => Bool.noConfusion (direction.symm.trans backwards), lists⟩
      · cases same
        exact ⟨fits, fun _ => enabled, lists⟩
      · cases same
    · intro given
      obtain ⟨fits, enabled, lists⟩ := given
      cases direction : o.isReversed with
      | false => exact .inl ⟨o, rfl, fits, direction, lists⟩
      | true => exact .inr (.inl ⟨enabled direction, o, rfl, fits, direction, lists⟩)
  | converted n a b =>
    constructor
    · intro either
      rcases either with ⟨_, same, _⟩ | ⟨_, _, same, _⟩ | ⟨enabled, _, _, _, same, meets⟩
      · cases same
      · cases same
      · cases same
        exact ⟨enabled, meets⟩
    · intro given
      obtain ⟨enabled, meets⟩ := given
      exact .inr (.inr ⟨enabled, n, a, b, rfl, meets⟩)

end Search

end PriceDesk.Discovery
