import PriceDesk.Proofs.Desk.Muting
import PriceDesk.Service.Basic

namespace PriceDesk

namespace Street

variable {α : Type} {i j : Nat} {w w' : Street}

theorem tally_congr (same : w.tallies[i]? = w'.tallies[i]?) : w.tally i = w'.tally i := by
  simp only [tally, List.getD_eq_getElem?_getD, same]

theorem modify_own (f : Tally → Tally) (same : w.tallies[i]? = w'.tallies[i]?) :
    (w.modify i f).tallies[i]? = (w'.modify i f).tallies[i]? := by
  simp only [modify, List.getElem?_modify, same]

theorem modify_other (f : Tally → Tally) (other : j ≠ i) :
    (w.modify i f).tallies[j]? = w.tallies[j]? := by
  simp only [modify, List.getElem?_modify, other.symm, if_false, id_map']

theorem pace_own (tier : Tier) (now : Instant) (same : w.tallies[i]? = w'.tallies[i]?) :
    (w.pace i tier now).1 = (w'.pace i tier now).1 ∧
      (w.pace i tier now).2.tallies[i]? = (w'.pace i tier now).2.tallies[i]? := by
  simp only [pace, tally_congr same]
  cases (w'.tally i).pace.acquire? tier now with
  | none => exact ⟨rfl, same⟩
  | some turn => exact ⟨rfl, modify_own _ same⟩

theorem pace_other (tier : Tier) (now : Instant) (other : j ≠ i) :
    (w.pace i tier now).2.tallies[j]? = w.tallies[j]? := by
  unfold pace
  cases (w.tally i).pace.acquire? tier now with
  | none => rfl
  | some turn => exact modify_other _ other

structure KeepsTo (i : Nat) (call : Call Street α) : Prop where
  own : ∀ patience now w w', w.tallies[i]? = w'.tallies[i]? →
    (call patience now w).1 = (call patience now w').1 ∧
      (call patience now w).2.tallies[i]? = (call patience now w').2.tallies[i]?
  others : ∀ patience now w j, j ≠ i → (call patience now w).2.tallies[j]? = w.tallies[j]?

def SameBut (i : Nat) (w w' : Street) : Prop := ∀ j, j ≠ i → w.tallies[j]? = w'.tallies[j]?

theorem SameBut.refl (i : Nat) (w : Street) : SameBut i w w := fun _ _ => rfl

theorem KeepsTo.unnoticed {call : Call Street α} (keeps : KeepsTo i call) (same : SameBut i w w')
    (patience : Option Duration) (now : Instant) : SameBut i (call patience now w).2 w' :=
  fun j other => (keeps.others patience now w j other).trans (same j other)

theorem KeepsTo.same {call : Call Street α} (keeps : KeepsTo j call) (apart : j ≠ i)
    (timeout : Duration) (now : Instant) : call.Same (SameBut i) timeout now now := by
  intro w w' alike
  obtain ⟨reply, after⟩ := keeps.own (some timeout) now w w' (alike j apart)
  refine ⟨reply, fun k other => ?_⟩
  by_cases self : k = j
  · rw [self]
    exact after
  · rw [keeps.others _ _ _ k self, keeps.others _ _ _ k self]
    exact alike k other

theorem keepsTo_count (f : Tally → Tally) (reply : Reply α) :
    KeepsTo i fun _ _ w => (reply, w.modify i f) where
  own _ _ _ _ same := ⟨rfl, modify_own f same⟩
  others _ _ _ _ other := modify_other f other

end Street

theorem SimulatedVenue.keepsTo (v : SimulatedVenue) (i : Nat) {call : Call Street Listing}
    (lists : (v.provider i).listing = some call) : Street.KeepsTo i call := by
  simp only [provider] at lists
  split at lists <;> cases lists
  exact Street.keepsTo_count _ _

theorem ScriptedVenue.keepsTo (v : ScriptedVenue) (i : Nat) {call : Call Street Listing}
    (lists : (v.provider i).listing = some call) : Street.KeepsTo i call := by
  obtain ⟨script, _, rfl⟩ := Option.map_eq_some_iff.mp lists
  refine ⟨fun _ _ w w' same => ⟨?_, Street.modify_own _ same⟩,
    fun _ _ w j other => Street.modify_other _ other⟩
  simp only [ScriptedVenue.call, Street.tally_congr same]

theorem Venue.keepsTo (v : Venue) (i : Nat) {call : Call Street Listing}
    (lists : (v.provider i).listing = some call) : Street.KeepsTo i call := by
  cases v with
  | simulated venue pace => exact venue.keepsTo i lists
  | scripted venue => exact venue.keepsTo i lists

namespace Adapter

variable {a : Adapter} {trip trip' : Trip}

/-- Whether two trips of an adapter are equal but for the other adapters of the street. -/
structure Alike (a : Adapter) (trip trip' : Trip) : Prop where
  now : trip.now = trip'.now
  deadline : trip.deadline = trip'.deadline
  tally : trip.street.tallies[a.index]? = trip'.street.tallies[a.index]?

theorem fetch_alike (alike : a.Alike trip trip') (method url : String) :
    (a.fetch method url trip).1 = (a.fetch method url trip').1 ∧
      a.Alike (a.fetch method url trip).2 (a.fetch method url trip').2 := by
  obtain ⟨now, street, deadline⟩ := trip
  obtain ⟨now', street', deadline'⟩ := trip'
  obtain ⟨sameNow, sameDeadline, tally⟩ := alike
  cases sameNow
  cases sameDeadline
  obtain ⟨start, after⟩ := Street.pace_own a.tier now tally
  unfold fetch
  simp only [start]
  split
  · exact ⟨rfl, rfl, rfl, tally⟩
  · split
    · exact ⟨rfl, rfl, rfl, after⟩
    · split
      · exact ⟨rfl, rfl, rfl, after⟩
      · exact ⟨rfl, rfl, rfl, after⟩

theorem fetch_others {j : Nat} (other : j ≠ a.index) (method url : String) :
    (a.fetch method url trip).2.street.tallies[j]? = trip.street.tallies[j]? := by
  have after := Street.pace_other (w := trip.street) a.tier trip.now other
  unfold fetch
  generalize trip.street.pace a.index a.tier trip.now = paced at after ⊢
  obtain ⟨start, street⟩ := paced
  dsimp only
  split
  · rfl
  · split
    · exact after
    · split
      · exact after
      · exact after

theorem keepsTo_fetchListing (a : Adapter) : Street.KeepsTo a.index (call a.fetchListing) := by
  constructor
  · intro patience now w w' same
    have alike : a.Alike ⟨now, w, patience.map (now + ·)⟩ ⟨now, w', patience.map (now + ·)⟩ :=
      ⟨rfl, rfl, same⟩
    cases pairs : a.description.pairs with
    | none =>
      simp only [call, fetchListing, pairs]
      exact ⟨trivial, same⟩
    | some endpoint =>
      obtain ⟨answer, after⟩ :=
        fetch_alike alike "get_asset_pairs" (a.url endpoint.path none none)
      simp only [call, fetchListing, pairs, answer, after.now]
      exact ⟨trivial, after.tally⟩
  · intro patience now w j other
    cases pairs : a.description.pairs with
    | none => simp only [call, fetchListing, pairs]
    | some endpoint =>
      simp only [call, fetchListing, pairs]
      exact fetch_others other _ _

theorem keepsTo (a : Adapter) {call : Call Street Listing}
    (lists : a.provider.listing = some call) : Street.KeepsTo a.index call := by
  simp only [provider, fullProvider] at lists
  split at lists <;> cases lists
  exact a.keepsTo_fetchListing

end Adapter

theorem Registry.mem_of_mem_of {ω : Type} {ps : List (Provider ω)} {p : Provider ω}
    (member : p ∈ (Registry.of ps).providers) : p ∈ ps :=
  (List.mem_filter.mp (List.mem_mergeSort.mp (firstBy_sublist.subset member))).1

namespace Service

variable {p : Provider Street} {service : Service}

theorem unnoticed_of_keepsTo {s : Setup Street} {ps : List (Provider Street)}
    (registry : s.registry = .of ps)
    (keeps : ∀ i q, ps[i]? = some q → ∀ call, q.listing = some call → Street.KeepsTo i call)
    (member : p ∈ s.registry.providers) : ∃ i, Unnoticed s p (Street.SameBut i) := by
  rw [registry] at member
  obtain ⟨i, place⟩ := List.mem_iff_getElem?.mp (Registry.mem_of_mem_of member)
  refine ⟨i, fun call lists now w w' alike => ?_, fun q among other call lists now => ?_⟩
  · exact (keeps i p place call lists).unnoticed alike _ now
  · rw [registry] at among
    obtain ⟨j, place'⟩ := List.mem_iff_getElem?.mp (Registry.mem_of_mem_of among)
    have apart : j ≠ i := by
      rintro rfl
      cases place.symm.trans place'
      exact other rfl
    exact (keeps j q place' call lists).same apart _ now

theorem unnoticed_of_venues {venues : List Venue} {settings : Settings}
    (member : p ∈ (ofVenues venues settings).setup.registry.providers) :
    ∃ i, Unnoticed (ofVenues venues settings).setup p (Street.SameBut i) := by
  refine unnoticed_of_keepsTo rfl (fun i q place call lists => ?_) member
  rw [List.getElem?_mapIdx] at place
  obtain ⟨v, _, rfl⟩ := Option.map_eq_some_iff.mp place
  exact v.keepsTo i lists

theorem unnoticed_of_configuration {c : Configuration} {server : Server}
    {patience : Option Duration} (made : ofConfiguration c server patience = .ok service)
    (member : p ∈ service.setup.registry.providers) :
    ∃ i, Unnoticed service.setup p (Street.SameBut i) := by
  unfold ofConfiguration at made
  cases valid : c.settings.validate with
  | error e => simp [valid, Except.mapError, bind, Except.bind] at made
  | ok _ =>
    cases built : c.exchanges.mapM Adapter.pace? with
    | error e => simp [valid, built, Except.mapError, bind, Except.bind] at made
    | ok paces =>
      simp only [valid, built, Except.mapError, bind, Except.bind, pure, Except.pure,
        Nat.zero_add] at made
      cases made
      refine unnoticed_of_keepsTo rfl (fun i q place call lists => ?_) member
      rw [List.getElem?_map, List.getElem?_mapIdx, Option.map_map] at place
      obtain ⟨e, _, rfl⟩ := Option.map_eq_some_iff.mp place
      exact (Adapter.of e server (patience.getD c.settings.timeout) i).keepsTo lists

end Service

end PriceDesk
