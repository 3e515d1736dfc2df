import PriceDesk.Proofs.Desk.Loading
import PriceDesk.Proofs.Discovery.BestMatch

namespace PriceDesk

variable {ω α : Type}

def Reply.within (r : Reply α) (provider method : String) (timeout : Duration) :
    Except MarketError α :=
  match r.delay with
  | none => .error (.timeout provider method timeout)
  | some delay =>
    if delay ≤ timeout then
      match r.outcome with
      | .error (.timeout provider method _) => .error (.timeout provider method delay)
      | outcome => outcome
    else .error (.timeout provider method timeout)

theorem Reply.within_eq_error {r : Reply α} {timeout : Duration}
    (fails : (∃ e, r.outcome = .error e) ∨ r.delay.all (timeout < ·)) (provider method : String) :
    ∃ e, r.within provider method timeout = .error e := by
  obtain ⟨delay, outcome⟩ := r
  cases delay with
  | none => exact ⟨_, rfl⟩
  | some delay =>
    by_cases soon : delay ≤ timeout
    · simp only [within, soon, if_true]
      rcases fails with ⟨e, rfl⟩ | late
      · cases e <;> exact ⟨_, rfl⟩
      · exact absurd soon (Nat.not_le.mpr (of_decide_eq_true late))
    · simp only [within, soon, if_false]
      exact ⟨_, rfl⟩

theorem Call.conclude_invoke (call : Call ω α) (provider method : String) (timeout : Duration)
    (now : Instant) (w : ω) :
    ((call.invoke provider method timeout now w).1.conclude now).2 =
      (call (some timeout) now w).1.within provider method timeout := by
  have cutoff : (call.invoke provider method timeout now w).1.cutoff =
      some (now + timeout, .timeout provider method timeout) := rfl
  have ready : (call.invoke provider method timeout now w).1.readyAt =
      (call (some timeout) now w).1.delay.map (now + ·) := rfl
  have begun : now ≤ now + timeout := Nat.le_add_right _ _
  unfold Reply.within
  cases delay : (call (some timeout) now w).1.delay with
  | none =>
    refine Pending.conclude_late cutoff begun fun t there => ?_
    rw [ready, delay] at there
    cases there
  | some delay' =>
    rw [delay, Option.map_some] at ready
    by_cases soon : delay' ≤ timeout
    · have inTime := Pending.conclude_in_time now ready fun limit ends => by
        cases cutoff.symm.trans ends
        exact Nat.add_le_add_left soon now
      simp only [soon, if_true]
      rw [inTime]
      simp only [invoke, delay]
      cases (call (some timeout) now w).1.outcome with
      | ok a => rfl
      | error e => cases e <;> rfl
    · simp only [soon, if_false]
      refine Pending.conclude_late cutoff begun fun t there => ?_
      cases ready.symm.trans there
      exact Nat.add_lt_add_left (Nat.lt_of_not_le soon) now

def Call.Same (Alike : ω → ω → Prop) (timeout : Duration) (now later : Instant)
    (call : Call ω α) : Prop :=
  ∀ w w', Alike w w' →
    (call (some timeout) now w).1 = (call (some timeout) later w').1 ∧
      Alike (call (some timeout) now w).2 (call (some timeout) later w').2

/-- Whether a call that is waited for ends alike in worlds that are alike, at one instant or
another. -/
def EndsAlike (Alike : ω → ω → Prop) (now later : Instant)
    (call : Instant → ω → Pending MarketError α × ω) : Prop :=
  ∀ w w', Alike w w' →
    ((call now w).1.conclude now).2 = ((call later w').1.conclude later).2 ∧
      Alike (call now w).2 (call later w').2

theorem Call.Same.endsAlike {Alike : ω → ω → Prop} {timeout : Duration} {now later : Instant}
    {call : Call ω α} (same : call.Same Alike timeout now later) (provider method : String) :
    EndsAlike Alike now later (call.invoke provider method timeout) := by
  intro w w' alike
  obtain ⟨reply, after⟩ := same w w' alike
  rw [Call.conclude_invoke, Call.conclude_invoke, reply]
  exact ⟨rfl, after⟩

theorem endsAlike_at_once {Alike : ω → ω → Prop} {now later : Instant}
    (outcome : Except MarketError α) :
    EndsAlike Alike now later fun now w => ({ readyAt := some now, outcome }, w) := by
  intro w w' alike
  simp only [Pending.conclude_at_once]
  exact ⟨trivial, alike⟩

def Provider.muted (p : Provider ω) : Provider ω := { p with listing := none }

def Provider.mutedAt (id : String) (p : Provider ω) : Provider ω :=
  if p.id = id then p.muted else p

namespace Provider

variable {id : String} {p q : Provider ω}

theorem mutedAt_of_ne (other : p.id ≠ id) : p.mutedAt id = p := if_neg other

theorem mutedAt_of_eq (own : p.id = id) : p.mutedAt id = p.muted := if_pos own

@[simp] theorem id_mutedAt : (p.mutedAt id).id = p.id := by
  unfold mutedAt
  split <;> rfl

@[simp] theorem network_mutedAt : (p.mutedAt id).network = p.network := by
  unfold mutedAt
  split <;> rfl

theorem noWorse_mutedAt (ordered : p.NoWorse q) : (p.mutedAt id).NoWorse (q.mutedAt id) := by
  unfold mutedAt
  split <;> split <;> exact ordered

/-- Whether listing fails at every call: the answer is an error, or late, or never comes. -/
def FailsToList (p : Provider ω) (timeout : Duration) : Prop :=
  ∀ call, p.listing = some call → ∀ now w,
    (∃ e, (call (some timeout) now w).1.outcome = .error e) ∨
      (call (some timeout) now w).1.delay.all (timeout < ·)

end Provider

def Registry.muting (r : Registry ω) (id : String) : Registry ω where
  providers := r.providers.map (Provider.mutedAt id)
  ordered := List.pairwise_map.mpr (r.ordered.imp Provider.noWorse_mutedAt)
  distinct := List.pairwise_map.mpr (r.distinct.imp fun differ => by simpa using differ)

def Setup.muting (s : Setup ω) (id : String) : Setup ω :=
  { s with registry := s.registry.muting id }

/-- Whether a list of providers is another one, but that a provider is missing or muted. -/
inductive Lacks (id : String) : List (Provider ω) → List (Provider ω) → Prop
  | nil : Lacks id [] []
  | other {q : Provider ω} {ps qs : List (Provider ω)} (differs : q.id ≠ id)
    (rest : Lacks id ps qs) : Lacks id (q :: ps) (q :: qs)
  | missing {p : Provider ω} {ps qs : List (Provider ω)} (own : p.id = id)
    (rest : Lacks id ps qs) : Lacks id (p :: ps) qs
  | muted {p : Provider ω} {ps qs : List (Provider ω)} (own : p.id = id)
    (rest : Lacks id ps qs) : Lacks id (p :: ps) (p.muted :: qs)

theorem lacks_filter {id : String} {keep keep' : Provider ω → Bool}
    (others : ∀ q, q.id ≠ id → keep' q = keep q)
    (own : ∀ p, p.id = id → keep' p.muted = true → keep p = true) (ps : List (Provider ω)) :
    Lacks id (ps.filter keep) ((ps.map (Provider.mutedAt id)).filter keep') := by
  induction ps with
  | nil => exact .nil
  | cons p ps ih =>
    rw [List.map_cons, List.filter_cons, List.filter_cons]
    by_cases same : p.id = id
    · rw [Provider.mutedAt_of_eq same]
      cases kept' : keep' p.muted with
      | true =>
        rw [own p same kept']
        exact .muted same ih
      | false =>
        cases kept : keep p with
        | true => exact .missing same ih
        | false => exact ih
    · rw [Provider.mutedAt_of_ne same, others p same]
      cases kept : keep p with
      | true => exact .other same ih
      | false => exact ih

section Listings

open Discovery (heard)
open Survey (listingCall)

variable {s : Setup ω} {p : Provider ω} {Alike : ω → ω → Prop} {timeout : Duration}
  {now : Instant}

/-- Whether nobody notices that a provider is asked for its listing: in worlds that are alike the
other providers list alike. -/
structure Unnoticed (s : Setup ω) (p : Provider ω) (Alike : ω → ω → Prop) : Prop where
  own : ∀ call, p.listing = some call → ∀ now w w', Alike w w' →
    Alike (call (some s.listingTimeout) now w).2 w'
  others : ∀ q ∈ s.registry.providers, q.id ≠ p.id → ∀ call, q.listing = some call →
    ∀ now, call.Same Alike s.listingTimeout now now

def outcomes (timeout : Duration) (now : Instant) (w : ω) (ps : List (Provider ω)) :
    List (Except MarketError Listing) × ω :=
  let begun := Floor.beginAll now w (ps.map (listingCall timeout))
  (begun.1.map (·.conclude now |>.2), begun.2)

theorem outcomes_cons (w : ω) (q : Provider ω) (ps : List (Provider ω)) :
    outcomes timeout now w (q :: ps) =
      (((listingCall timeout q now w).1.conclude now).2 ::
          (outcomes timeout now (listingCall timeout q now w).2 ps).1,
        (outcomes timeout now (listingCall timeout q now w).2 ps).2) := rfl

theorem heard_cons_ok (q : Provider ω) (ps : List (Provider ω)) (l : Listing)
    (listings : List (Except MarketError Listing)) :
    heard (q :: ps) (.ok l :: listings) = (q, l) :: heard ps listings := rfl

theorem listingCall_of_unlisted (unlisted : p.listing = none) (w : ω) :
    (listingCall timeout p now w).2 = w ∧
      ∃ e, ((listingCall timeout p now w).1.conclude now).2 = .error e := by
  simp only [listingCall, unlisted, Pending.conclude_at_once, true_and]
  exact ⟨_, rfl⟩

theorem filterMap_outcomes (w : ω) (ps : List (Provider ω)) :
    (outcomes timeout now w ps).1.filterMap Except.toOption =
      (heard ps (outcomes timeout now w ps).1).map (·.2) := by
  induction ps generalizing w with
  | nil => rfl
  | cons q ps ih =>
    rw [outcomes_cons]
    cases ((listingCall timeout q now w).1.conclude now).2 with
    | error e => exact ih _
    | ok l => exact congrArg (l :: ·) (ih _)

theorem error_of_failsToList (fails : p.FailsToList timeout) (w : ω) :
    ∃ e, ((listingCall timeout p now w).1.conclude now).2 = .error e := by
  cases listed : p.listing with
  | none => exact (listingCall_of_unlisted listed w).2
  | some call =>
    simp only [listingCall, listed, Call.conclude_invoke]
    exact Reply.within_eq_error (fails call listed now w) _ _

theorem Unnoticed.listingCall (unnoticed : Unnoticed s p Alike) {q : Provider ω}
    (member : q ∈ s.registry.providers) (other : q.id ≠ p.id) (now : Instant) :
    EndsAlike Alike now now (Survey.listingCall s.listingTimeout q) := by
  unfold Survey.listingCall
  cases listed : q.listing with
  | none => exact endsAlike_at_once _
  | some call => exact (unnoticed.others q member other call listed now).endsAlike _ _

theorem Unnoticed.begun (unnoticed : Unnoticed s p Alike) {w w' : ω} (alike : Alike w w') :
    Alike (Survey.listingCall s.listingTimeout p now w).2 w' := by
  cases listed : p.listing with
  | none =>
    rw [(listingCall_of_unlisted listed w).1]
    exact alike
  | some call =>
    simp only [Survey.listingCall, listed]
    exact unnoticed.own call listed now w w' alike

theorem heard_lacks (member : p ∈ s.registry.providers) (fails : p.FailsToList s.listingTimeout)
    (unnoticed : Unnoticed s p Alike) {ps qs : List (Provider ω)} (lacks : Lacks p.id ps qs)
    (registered : ∀ q ∈ ps, q ∈ s.registry.providers) (now : Instant) {w w' : ω}
    (alike : Alike w w') :
    heard ps (outcomes s.listingTimeout now w ps).1 =
        heard qs (outcomes s.listingTimeout now w' qs).1 ∧
      Alike (outcomes s.listingTimeout now w ps).2 (outcomes s.listingTimeout now w' qs).2 ∧
      ∀ x ∈ heard ps (outcomes s.listingTimeout now w ps).1, x.1.id ≠ p.id := by
  induction lacks generalizing w w' with
  | nil => exact ⟨rfl, alike, fun _ among => absurd among List.not_mem_nil⟩
  | @other q ps qs differs rest ih =>
    obtain ⟨same, after⟩ :=
      unnoticed.listingCall (registered q List.mem_cons_self) differs now w w' alike
    obtain ⟨heard', alike', others⟩ :=
      ih (fun q among => registered q (List.mem_cons_of_mem _ among)) after
    rw [outcomes_cons, outcomes_cons, ← same]
    cases ((Survey.listingCall s.listingTimeout q now w).1.conclude now).2 with
    | error e => exact ⟨heard', alike', others⟩
    | ok l =>
      rw [heard_cons_ok, heard_cons_ok, heard']
      refine ⟨rfl, alike', fun x among => ?_⟩
      rcases List.mem_cons.mp among with rfl | among
      · exact differs
      · exact others x (heard' ▸ among)
  | @missing q ps qs own rest ih =>
    cases Registry.eq_of_id (registered q List.mem_cons_self) member own
    obtain ⟨e, failed⟩ := error_of_failsToList fails w
    rw [outcomes_cons, failed]
    exact ih (fun q among => registered q (List.mem_cons_of_mem _ among)) (unnoticed.begun alike)
  | @muted q ps qs own rest ih =>
    cases Registry.eq_of_id (registered q List.mem_cons_self) member own
    obtain ⟨e, failed⟩ := error_of_failsToList fails w
    have silent : p.muted.listing = none := rfl
    obtain ⟨still, e', failed'⟩ := listingCall_of_unlisted silent w'
    rw [outcomes_cons, outcomes_cons, failed, failed', still]
    exact ih (fun q among => registered q (List.mem_cons_of_mem _ among)) (unnoticed.begun alike)

end Listings

namespace Registry

variable {r : Registry ω} {id : String} {c : Capability}

theorem has_of_muted {p : Provider ω} (has : p.muted.has c = true) : p.has c = true := by
  cases c with
  | assetPairs => cases has
  | pricing | orderBook | volume => exact has

theorem has_mutedAt (other : c ≠ .assetPairs) (p : Provider ω) :
    (p.mutedAt id).has c = p.has c := by
  unfold Provider.mutedAt
  split
  · cases c with
    | assetPairs => exact absurd rfl other
    | pricing | orderBook | volume => rfl
  · rfl

theorem lacks_direct (r : Registry ω) (id : String) (c : Capability) :
    Lacks id (r.direct c) ((r.muting id).direct c) := by
  simp only [direct, having_eq, List.filter_filter]
  refine lacks_filter (fun _ _ => rfl) (fun p _ kept => ?_) r.providers
  obtain ⟨asks, has⟩ := Bool.and_eq_true_iff.mp kept
  exact Bool.and_eq_true_iff.mpr ⟨asks, has_of_muted has⟩

theorem having_muting (r : Registry ω) (id : String) (other : c ≠ .assetPairs) :
    (r.muting id).having c = (r.having c).map (Provider.mutedAt id) := by
  simp only [having_eq, muting, List.filter_map, Function.comp_def, has_mutedAt other]

theorem direct_muting (r : Registry ω) (id : String) (other : c ≠ .assetPairs) :
    (r.muting id).direct c = (r.direct c).map (Provider.mutedAt id) := by
  have asks (p : Provider ω) : (p.mutedAt id).direct = p.direct := by
    unfold Provider.mutedAt
    split <;> rfl
  simp only [direct, having_muting r id other, List.filter_map, Function.comp_def, asks]

theorem onNetwork_muting (r : Registry ω) (id : String) (n : Network) (other : c ≠ .assetPairs) :
    (r.muting id).onNetwork n c = (r.onNetwork n c).map (Provider.mutedAt id) := by
  simp only [onNetwork, having_muting r id other, List.filter_map, Function.comp_def,
    Provider.network_mutedAt]

theorem isPriced_muting (options : DiscoveryOptions) (r : Registry ω) (id : String)
    (p : Provider ω) :
    Discovery.isPriced options (r.muting id) p = Discovery.isPriced options r p := by
  have prefers : ((r.muting id).preferred? p.network .pricing).isSome =
      (r.preferred? p.network .pricing).isSome := by
    simp only [preferred?, having_muting r id (by decide : Capability.pricing ≠ .assetPairs),
      List.find?_map, Option.isSome_map, Function.comp_def, Provider.network_mutedAt]
  simp only [Discovery.isPriced, prefers]

theorem lacks_sources (options : DiscoveryOptions) (r : Registry ω) (id : String)
    (pair : AssetPair) (network : Option Network) :
    Lacks id (Discovery.sources options r pair network)
      (Discovery.sources options (r.muting id) pair network) := by
  unfold Discovery.sources
  split
  · exact .nil
  · have prices : Discovery.isPriced options (r.muting id) = Discovery.isPriced options r :=
      funext (isPriced_muting options r id)
    rw [prices]
    cases network with
    | none =>
      simp only [Discovery.considered, direct, having_eq, List.filter_filter]
      refine lacks_filter (fun _ _ => rfl) (fun p _ kept => ?_) r.providers
      obtain ⟨_, _, has⟩ := by simpa only [Bool.and_eq_true] using kept
      cases has
    | some n =>
      simp only [Discovery.considered, onNetwork, having_eq, List.filter_filter]
      refine lacks_filter (fun _ _ => rfl) (fun p _ kept => ?_) r.providers
      obtain ⟨_, _, has⟩ := by simpa only [Bool.and_eq_true] using kept
      cases has

end Registry

end PriceDesk
