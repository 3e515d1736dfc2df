import Mathlib.Logic.Relation
import PriceDesk.Desk.Rush
import PriceDesk.Proofs.Discovery.BestMatch

namespace PriceDesk

theorem Schedule.run_keeps {σ : Type} {sched : Schedule σ} {P : σ → Prop}
    (round : ∀ x, P x → P (sched.round x).2) (tick : ∀ t x, P x → P (sched.tick t x))
    (fuel : Nat) {x : σ} (now : P x) : P (sched.run fuel x) := by
  induction fuel generalizing x with
  | zero => exact now
  | succ fuel ih =>
    have after := round x now
    unfold run
    split
    · next polled =>
      rw [polled] at after
      exact ih after
    · next polled =>
      rw [polled] at after
      split
      · exact ih (tick _ _ after)
      · exact after

variable {ω : Type} {s : Setup ω}

def Action.Enrolled (s : Setup ω) : Action ω → Prop
  | .survey ps => ∀ p ∈ ps, p ∈ s.registry.providers
  | _ => True

def Action.IsWork : Action ω → Prop
  | .lookup _ _ | .advance _ | .collect _ | .tick _ => True
  | .request _ | .survey _ | .drop _ | .forget => False

theorem Action.IsWork.enrolled {a : Action ω} (isWork : a.IsWork) : a.Enrolled s := by
  cases a with
  | survey _ => cases isWork
  | request _ | lookup _ _ | advance _ | collect _ | drop _ | tick _ | forget => exact trivial

namespace Desk

def Leads (s : Setup ω) (d e : Desk ω) : Prop := ∃ a : Action ω, a.Enrolled s ∧ step s d a = some e

abbrev Reaches (s : Setup ω) : Desk ω → Desk ω → Prop := Relation.ReflTransGen (Leads s)

abbrev Works (s : Setup ω) : Desk ω → Desk ω → Prop :=
  Relation.ReflTransGen fun d e => ∃ a : Action ω, a.IsWork ∧ step s d a = some e

theorem Works.reaches {d e : Desk ω} (works : Works s d e) : Reaches s d e :=
  Relation.ReflTransGen.mono (fun _ _ ⟨a, isWork, step⟩ => ⟨a, isWork.enrolled, step⟩) _ _ works

section

variable {R : Desk ω → Desk ω → Prop}

theorem attempt_leads (m : Bool × Desk ω) {a : Action ω}
    (leads : ∀ e, step s m.2 a = some e → R m.2 e) :
    Relation.ReflTransGen R m.2 (attempt s m a).2 := by
  unfold attempt
  split
  · next d step => exact .single (leads d step)
  · exact .refl

theorem reaches_foldl {α β : Type} {f : β → α → β} (desk : β → Desk ω)
    (each : ∀ b a, Relation.ReflTransGen R (desk b) (desk (f b a))) (as : List α) (b : β) :
    Relation.ReflTransGen R (desk b) (desk (as.foldl f b)) := by
  induction as generalizing b with
  | nil => exact .refl
  | cons a as ih => exact (each b a).trans (ih (f b a))

end

theorem reaches_attempt (m : Bool × Desk ω) {a : Action ω} (enrolled : a.Enrolled s) :
    Reaches s m.2 (attempt s m a).2 :=
  attempt_leads m fun _ step => ⟨a, enrolled, step⟩

theorem works_attempt (m : Bool × Desk ω) {a : Action ω} (isWork : a.IsWork) :
    Works s m.2 (attempt s m a).2 :=
  attempt_leads m fun _ step => ⟨a, isWork, step⟩

theorem works_exhaust {a : Action ω} (isWork : a.IsWork) (n : Nat) (m : Bool × Desk ω) :
    Works s m.2 (exhaust s a n m).2 := by
  induction n generalizing m with
  | zero => exact .refl
  | succ n ih =>
    unfold exhaust
    split
    · next d step => exact .head ⟨a, isWork, step⟩ (ih (true, d))
    · exact .refl

theorem works_pollSurvey (owner : Owner) (size : Nat) (m : Bool × Desk ω) :
    Works s m.2 (pollSurvey s owner size m).2 :=
  reaches_foldl Prod.snd (fun m i => works_exhaust (a := .lookup owner i) trivial 3 m) _ m

theorem works_pollAlone (m : Bool × Desk ω) (id : Nat) : Works s m.2 (pollAlone s m id).2 :=
  (works_pollSurvey _ _ m).trans (works_exhaust (a := .advance id) trivial _ _)

theorem works_pollFlight (m : Bool × Desk ω) (id : Nat) : Works s m.2 (pollFlight s m id).2 := by
  have alone := works_pollAlone (s := s) m id
  unfold pollFlight
  simp only
  split
  · exact alone
  · exact (alone.trans (reaches_foldl Prod.snd works_pollAlone _ _)).trans
      (works_attempt (a := .advance id) _ trivial)

theorem works_pollCaller (m : Bool × Desk ω) (id : Nat) : Works s m.2 (pollCaller s m id).2 := by
  unfold pollCaller
  split
  · next f _ => exact (works_pollFlight m f).trans (works_attempt (a := .collect id) _ trivial)
  · exact works_pollSurvey _ _ m
  · exact .refl

theorem works_run (d : Desk ω) : Works s d (run s d) := by
  refine Schedule.run_keeps (P := Works s d) (fun e reached => ?_) (fun t e reached => ?_) _ .refl
  · exact reached.trans (reaches_foldl Prod.snd works_pollCaller _ (false, e))
  · exact reached.trans (works_attempt (a := .tick t) (false, e) trivial)

theorem reaches_forget (d : Desk ω) : Reaches s d d.forget := .single ⟨.forget, trivial, rfl⟩

theorem reaches_prices (d : Desk ω) (keys : List RequestKey) :
    Reaches s d (prices s d keys).2 := by
  have asked : Reaches s d (attempts s (false, d) (keys.map .request)).2 := by
    rw [attempts, List.foldl_map]
    exact reaches_foldl Prod.snd (fun m key => reaches_attempt (a := .request key) m trivial) keys
      (false, d)
  exact (asked.trans (works_run _).reaches).trans (reaches_forget _)

theorem reaches_survey (d : Desk ω) {ps : List (Provider ω)}
    (enrolled : ∀ p ∈ ps, p ∈ s.registry.providers) : Reaches s d (survey s d ps).2 := by
  have asked := reaches_attempt (s := s) (a := .survey ps) (false, d) enrolled
  unfold survey
  -- The desks in between are named, so that no run is unfolded to compare them.
  generalize attempt s (false, d) (.survey ps) = m at asked ⊢
  have answered := (works_run (s := s) m.2).reaches
  generalize run s m.2 = e at answered ⊢
  have left := reaches_attempt (s := s) (a := .drop d.nextCaller) (false, e) trivial
  exact ((asked.trans answered).trans left).trans (reaches_attempt (a := .forget) _ trivial)

theorem reaches_discover (d : Desk ω) (pair : AssetPair) (network : Option Network) :
    Reaches s d (discover s d pair network).2 :=
  reaches_survey d fun _ member => Discovery.sources_sublist.subset member

end Desk

namespace Rush

open Desk (Reaches)

theorem reaches_pollVisitor (d : Desk ω) (v : Visitor) :
    Reaches s d (pollVisitor s d v).2.2 := by
  unfold pollVisitor
  simp only
  split
  · exact .refl
  · have polled {m : Bool × Desk ω} (asked : Reaches s d m.2) (id : Nat) :=
      asked.trans (Desk.works_pollCaller m id).reaches
    have left {m : Bool × Desk ω} (asked : Reaches s d m.2) (id : Nat) :=
      (polled asked id).trans (Desk.reaches_attempt (a := .drop id) _ trivial)
    cases v.caller with
    | some id =>
      have asked : Reaches s d (false, d).2 := .refl
      simp only
      split
      · exact polled asked id
      · split
        · exact left asked id
        · exact polled asked id
    | none =>
      have asked := Desk.reaches_attempt (s := s) (a := .request v.visit.key) (false, d) trivial
      simp only
      split
      · exact polled asked _
      · split
        · exact left asked _
        · exact polled asked _

theorem reaches_round (r : Rush ω) : Reaches s r.desk (round s r).2.desk := by
  have polled {f : Bool × List Visitor × Desk ω → Visitor → Bool × List Visitor × Desk ω}
      (each : ∀ x v, Reaches s x.2.2 (f x v).2.2) :
      Reaches s r.desk (r.visitors.foldl f (false, [], r.desk)).2.2 :=
    Desk.reaches_foldl (fun x => x.2.2) each r.visitors (false, [], r.desk)
  unfold round
  simp only
  split <;> exact polled fun x v => reaches_pollVisitor x.2.2 v

theorem reaches_rush (d : Desk ω) (visits : List Visit) (probeAfter : Duration) :
    Reaches s d (run s d visits probeAfter).desk := by
  refine .trans ?_ (Desk.reaches_forget _)
  refine Schedule.run_keeps (P := fun r : Rush ω => Reaches s d r.desk) (fun r reached => ?_)
    (fun t r reached => ?_) _ .refl
  · exact reached.trans (reaches_round r)
  · exact reached.trans (Desk.works_attempt (a := .tick t) (false, r.desk) trivial).reaches

end Rush

end PriceDesk
