import Mathlib.Data.List.Nodup
import PriceDesk.Proofs.Desk.Isolation
import PriceDesk.Proofs.Desk.Dealings

namespace PriceDesk

variable {ω α β : Type}

theorem exists_map_of_forall₂ {R : α → β → Prop} {xs : List α} {ys : List β} (b : β)
    (related : List.Forall₂ R xs ys) (distinct : xs.Nodup) :
    ∃ f, ys = xs.map f ∧ ∀ x ∈ xs, R x (f x) := by
  classical
  induction related with
  | nil => exact ⟨fun _ => b, rfl, fun _ member => absurd member List.not_mem_nil⟩
  | @cons x y xs ys first rest ih =>
    obtain ⟨new, distinct⟩ := List.nodup_cons.mp distinct
    obtain ⟨f, rfl, each⟩ := ih distinct
    have other : ∀ z ∈ xs, Function.update f x y z = f z := fun z member =>
      Function.update_of_ne (ne_of_mem_of_not_mem member new) y f
    -- The tail does not see what is changed for its head.
    refine ⟨Function.update f x y, ?_, fun z member => ?_⟩
    · rw [List.map_cons, Function.update_self, List.map_congr_left other]
    · rcases List.mem_cons.mp member with rfl | later
      · rw [Function.update_self]
        exact first
      · rw [other z later]
        exact each z later

theorem Floor.together_concludes (f : Floor ω)
    (call : β → Instant → ω → Pending MarketError α × ω) (xs : List β) :
    List.Forall₂ (fun x r => ∃ w, r = ((call x f.clock.now w).1.conclude f.clock.now).2) xs
      (f.together (xs.map call)).1 := by
  rw [f.together_fst]
  generalize f.world = w
  induction xs generalizing w with
  | nil => exact .nil
  | cons x xs ih => exact .cons ⟨w, rfl⟩ (ih _)

/-- What may be heard of a provider that a desk asks for its listing, and goes on from there. -/
inductive Provider.Heard (s : Setup ω) (d : Desk ω) (p : Provider ω) :
    Except MarketError Listing → Prop
  | remembered {e : Desk ω} {l : Listing} (lists : p.listing.isSome = true)
      (reached : Desk.Reaches s d e) (known : Survey.known e.floor p = some l) :
      Heard s d p (.ok l)
  | answered {call : Call ω Listing} {now later : Instant} {w : ω}
      {r : Except MarketError Listing} (lists : p.listing = some call)
      (answer : (call.invoke p.id "get_asset_pairs" s.listingTimeout now w).1.poll later = some r) :
      Heard s d p r
  | unlisted (mute : p.listing = none) :
      Heard s d p (.error (.noProviderForNetwork p.network.name Capability.assetPairs.name))
  | missing : Heard s d p (.error (.timeout p.id "get_asset_pairs" s.listingTimeout))

def Lookup.AsksFor (s : Setup ω) (d : Desk ω) (p : Provider ω) : Lookup MarketError Listing → Prop
  | .idle | .queued _ => True
  | .computing _ call => ∃ ask now w, p.listing = some ask ∧
      call = (Call.invoke ask p.id "get_asset_pairs" s.listingTimeout now w).1
  | .done r => p.Heard s d r

theorem Lookup.AsksFor.move {s : Setup ω} {d e : Desk ω} {p : Provider ω} {call : Call ω Listing}
    {l l' : Lookup MarketError Listing} {m' : Memo String Listing} {w' : ω}
    (asks : l.AsksFor s d p) (reached : Desk.Reaches s d e) (lists : p.listing = some call)
    (moved : l.Moved (call.invoke p.id "get_asset_pairs" s.listingTimeout e.floor.clock.now) p.id
      e.floor.clock e.floor.listings e.floor.world l' m' w') : l'.AsksFor s d p := by
  cases moved with
  | entered => trivial
  | recalled turn fresh => exact .remembered (Option.isSome_of_eq_some lists) reached fresh
  | began turn stale => exact ⟨call, _, _, lists, rfl⟩
  | stored answer | failed answer =>
    obtain ⟨ask, now, w, lists', rfl⟩ := asks
    exact .answered lists' answer

theorem Lookup.AsksFor.heard {s : Setup ω} {d : Desk ω} {p : Provider ω}
    {l : Lookup MarketError Listing} (asks : l.AsksFor s d p) : p.Heard s d
      (l.result?.getD (.error (.timeout p.id "get_asset_pairs" s.listingTimeout))) := by
  cases l with
  | done r => exact asks
  | idle | queued _ | computing _ _ => exact .missing

namespace Desk

variable {s : Setup ω} {d e e' : Desk ω} {ps : List (Provider ω)} {id : Nat}

/-- Whether a caller has been surveying these providers, one by one, since the desk was `d`. -/
structure Surveys (s : Setup ω) (d : Desk ω) (ps : List (Provider ω)) (id : Nat) (e : Desk ω)
    (survey : Survey ω) : Prop where
  caller : e.caller? id = some (.surveying survey)
  providers : survey.map (·.1) = ps
  asks : ∀ x ∈ survey, x.2.AsksFor s d x.1

theorem surveys_admitCaller (h : Coherent d) (ps : List (Provider ω)) :
    Surveys s d ps d.nextCaller (d.admitCaller (.surveying (.of ps))) (.of ps) where
  caller := by
    have after : Coherent (d.admitCaller (.surveying (.of ps))) := h.admitCaller (by simp)
    exact after.caller?_of_mem (List.mem_append_right _ List.mem_cons_self)
  providers := Survey.map_of ps
  asks x member := by
    obtain ⟨p, _, rfl⟩ := List.mem_map.mp member
    cases lists : p.listing with
    | none => exact .unlisted lists
    | some call => trivial

theorem Surveys.work {survey : Survey ω} (surveys : Surveys s d ps id e survey)
    (reached : Reaches s d e) {a : Action ω} (isWork : a.IsWork) (step : step s e a = some e') :
    ∃ survey', Surveys s d ps id e' survey' := by
  obtain ⟨caller, providers, asks⟩ := surveys
  have stays (same : e'.caller? id = e.caller? id) : ∃ survey', Surveys s d ps id e' survey' :=
    ⟨survey, same.trans caller, providers, asks⟩
  cases transition_of_step step with
  | @callerLooked c one two floor index other looks =>
    by_cases own : id = c
    · subst own
      cases caller.symm.trans other
      obtain ⟨p, l, l', looks⟩ := Survey.looks_of_step looks
      obtain ⟨call, lists, moved⟩ := looks.moved
      refine ⟨two, ?_, looks.providers.trans providers, fun x member => ?_⟩
      · rw [caller?_setCaller, if_pos rfl]
        exact congrArg (Option.map _) caller
      · rw [looks.survey] at member
        rcases List.mem_or_eq_of_mem_set member with was | rfl
        · exact asks x was
        · exact (asks (p, l) (List.mem_of_getElem? looks.there)).move reached lists moved
    · refine stays ?_
      rw [caller?_setCaller, if_neg own]
      rfl
  | @collected c f' f r other flight stage =>
    have apart : id ≠ c := by
      intro same
      rw [← same, caller] at other
      cases other
    exact stays (by rw [caller?_setCaller, if_neg apart])
  | split flight stage loaded found one two =>
    exact stays (congrArg (List.lookup id) (two.callers.trans one.callers))
  | flightLooked _ _ _ | ended _ _ | wentOn _ _ | ticked _ => exact stays rfl
  | requested _ | surveyed | left _ | surveyLeft _ | forgot => cases isWork

theorem Surveys.works {survey : Survey ω} (surveys : Surveys s d ps id e survey)
    (reached : Reaches s d e) (works : Works s e e') : ∃ survey', Surveys s d ps id e' survey' := by
  induction works with
  | refl => exact ⟨survey, surveys⟩
  | tail earlier last ih =>
    obtain ⟨survey', surveys'⟩ := ih
    obtain ⟨a, isWork, step⟩ := last
    exact surveys'.work (reached.trans (Works.reaches earlier)) isWork step

theorem forall₂_survey (h : Coherent d) (enrolled : ∀ p ∈ ps, p ∈ s.registry.providers) :
    List.Forall₂ (fun p r => p.Heard s d r) ps (survey s d ps).1 := by
  have admitted : (attempt s (false, d) (.survey ps)).2 =
      d.admitCaller (.surveying (.of ps)) := rfl
  have asked : Reaches s d (d.admitCaller (.surveying (.of ps))) :=
    .single ⟨.survey ps, enrolled, rfl⟩
  obtain ⟨surveyed, surveys⟩ := (surveys_admitCaller h ps).works asked (works_run _)
  unfold survey
  simp only [admitted, surveys.caller]
  generalize run s (d.admitCaller (.surveying (.of ps))) = e at surveys
  rw [← surveys.providers, List.forall₂_map_left_iff, List.forall₂_map_right_iff,
    List.forall₂_same]
  exact fun x member => (surveys.asks x member).heard

variable {pair : AssetPair} {c : Capability} {listing : Provider ω → Except MarketError Listing}
  {covered : List (Coverage ω)}

/-- What the direct providers with a capability are heard to list, and those who cover a pair. -/
structure Surveyed (s : Setup ω) (d : Desk ω) (pair : AssetPair) (c : Capability)
    (listing : Provider ω → Except MarketError Listing) (covered : List (Coverage ω)) : Prop where
  heard : (survey s d (s.registry.direct c)).1 = (s.registry.direct c).map listing
  own : ∀ p ∈ s.registry.direct c, p.Heard s d (listing p)
  turns : d.callers = [] →
    (∀ p ∈ s.registry.direct c, (d.floor.listings.slot p.id).queue = []) →
    ∀ p ∈ s.registry.direct c, ∃ w, listing p = ((Survey.listingTurn s.listingTimeout
      (Survey.known d.floor p) p d.floor.clock.now w).1.conclude d.floor.clock.now).2
  covers : ∀ x, x ∈ covered ↔ x.1 ∈ s.registry.direct c ∧ ∃ l, listing x.1 = .ok l ∧
    (x.2 = false ∧ l.contains pair = true ∨
      x.2 = true ∧ l.contains pair = false ∧ l.contains pair.reversed = true)
  inOrder : (covered.map (·.1)).Sublist (s.registry.direct c)
  ordered : (covered.map (·.1)).Pairwise Provider.NoWorse

theorem covers?_eq_some_iff {x : Provider ω × Listing} {y : Coverage ω} :
    covers? pair x = some y ↔ y.1 = x.1 ∧
      (y.2 = false ∧ x.2.contains pair = true ∨
        y.2 = true ∧ x.2.contains pair = false ∧ x.2.contains pair.reversed = true) := by
  obtain ⟨p, isReversed⟩ := y
  unfold covers? PairSet.containsReversed
  cases x.2.contains pair <;> cases x.2.contains pair.reversed <;> cases isReversed <;>
    simp [eq_comm]

theorem filterMap_covers?_sublist (heard : List (Provider ω × Listing)) :
    ((heard.filterMap (covers? pair)).map (·.1)).Sublist (heard.map (·.1)) := by
  induction heard with
  | nil => exact .slnil
  | cons x heard ih =>
    cases covers : covers? pair x with
    | none =>
      rw [List.filterMap_cons_none covers]
      exact ih.cons x.1
    | some y =>
      rw [List.filterMap_cons_some covers, List.map_cons, fst_of_covers? covers]
      exact ih.cons_cons x.1

theorem nodup_direct : (s.registry.direct c).Nodup := by
  refine (s.registry.distinct.sublist direct_sublist).imp fun {p q} differ same => ?_
  exact differ (congrArg Provider.id same)

theorem exists_surveyed (h : Coherent d) (pair : AssetPair) (c : Capability) :
    ∃ listing, Surveyed s d pair c listing
      (covering pair (s.registry.direct c) (survey s d (s.registry.direct c)).1) := by
  have registered : (s.registry.direct c).Sublist s.registry.providers := direct_sublist
  obtain ⟨listing, same, own⟩ := exists_map_of_forall₂ (.error .noProvidersAvailable)
    (forall₂_survey h (s := s) fun p member => registered.subset member) nodup_direct
  have inOrder : ((covering pair (s.registry.direct c) (survey s d (s.registry.direct c)).1).map
      (·.1)).Sublist (s.registry.direct c) := by
    rw [covering_eq]
    exact (filterMap_covers?_sublist _).trans Discovery.heard_sublist
  refine ⟨listing, same, own, fun alone free => ?_, fun x => ?_, inOrder,
    s.registry.ordered.sublist (inOrder.trans registered)⟩
  · have together := d.floor.together_concludes
      (fun p => Survey.listingTurn s.listingTimeout (Survey.known d.floor p) p)
      (s.registry.direct c)
    have turns := (survey_eq_turns (s := s) alone free (s.registry.distinct.sublist registered)
      registered.length_le).1
    rw [← Survey.turns, ← turns, same, List.forall₂_map_right_iff, List.forall₂_same] at together
    exact together
  · rw [same, covering_eq, List.mem_filterMap]
    constructor
    · rintro ⟨⟨p, l⟩, heard, covers⟩
      obtain ⟨rfl, direction⟩ := covers?_eq_some_iff.mp covers
      obtain ⟨member, lists⟩ := Discovery.mem_heard_map.mp heard
      exact ⟨member, l, lists, direction⟩
    · rintro ⟨member, l, lists, direction⟩
      exact ⟨(x.1, l), Discovery.mem_heard_map.mpr ⟨member, lists⟩,
        covers?_eq_some_iff.mpr ⟨rfl, direction⟩⟩

theorem coverage_fst (s : Setup ω) (d : Desk ω) (pair : AssetPair) (c : Capability) :
    (coverage s d pair c).1 = if (s.registry.direct c).isEmpty then .error .noProvidersAvailable
      else .ok (covering pair (s.registry.direct c) (survey s d (s.registry.direct c)).1) := by
  unfold coverage
  simp only
  split <;> rfl

theorem exists_answers (h : Coherent d) (pair : AssetPair) (c : Capability)
    (call : Coverage ω → Instant → ω → Pending MarketError α × ω) :
    ∃ (listing : Provider ω → Except MarketError Listing) (covered : List (Coverage ω))
      (answer : Coverage ω → Except MarketError α), Surveyed s d pair c listing covered ∧
      (∀ x ∈ covered, ∃ w, answer x =
        ((call x (askedAt s d pair c) w).1.conclude (askedAt s d pair c)).2) ∧
      answers s d pair c call = if (s.registry.direct c).isEmpty then .error .noProvidersAvailable
        else .ok (covered.map fun x => (x, answer x)) := by
  obtain ⟨listing, surveyed⟩ := exists_surveyed (s := s) h pair c
  generalize covers : covering pair (s.registry.direct c) (survey s d (s.registry.direct c)).1 =
    covered at surveyed
  have together := (coverage s d pair c).2.floor.together_concludes call covered
  have distinct : covered.Nodup :=
    List.Nodup.of_map _ (nodup_direct.sublist surveyed.inOrder)
  obtain ⟨answer, same, each⟩ := exists_map_of_forall₂ (.error .noProvidersAvailable)
    together distinct
  refine ⟨listing, covered, answer, surveyed, each, ?_⟩
  rw [answers, coverage_fst, covers]
  split
  · rfl
  · simp only [Except.map, same, ← List.map_prod_left_eq_zip]

end Desk

end PriceDesk
