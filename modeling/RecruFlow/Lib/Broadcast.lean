import Mathlib.Data.Finset.Basic
import RecruFlow.Lib.Trace

/-!
# Publish and subscribe

A hub puts each published value at the end of the queue of every subscriber.
A subscription starts with an empty queue, and its reader takes from the front.
-/

namespace RecruFlow.Lib.Broadcast

open Trace

structure Hub (σ ε : Type*) where
  subscribers : Finset σ
  queue : σ → List ε
  /-- What the reader of each subscription has taken from its queue. -/
  received : σ → List ε
  /-- Everything that was published, with or without subscribers. -/
  published : List ε

inductive HubEvent (σ ε : Type*) where
  | subscribe (s : σ)
  | unsubscribe (s : σ)
  | publish (e : ε)
  | receive (s : σ)

def Hub.start (σ ε : Type*) : Hub σ ε :=
  ⟨∅, fun _ => [], fun _ => [], []⟩

variable {σ ε : Type*} [DecidableEq σ]

def Hub.subscribe (hub : Hub σ ε) (s : σ) : Hub σ ε :=
  { hub with
    subscribers := insert s hub.subscribers
    queue := Function.update hub.queue s []
    received := Function.update hub.received s [] }

def Hub.unsubscribe (hub : Hub σ ε) (s : σ) : Hub σ ε :=
  { hub with subscribers := hub.subscribers.erase s }

def Hub.publish (hub : Hub σ ε) (e : ε) : Hub σ ε :=
  { hub with
    queue := fun s => if s ∈ hub.subscribers then hub.queue s ++ [e] else hub.queue s
    published := hub.published ++ [e] }

def Hub.publishAll (hub : Hub σ ε) (es : List ε) : Hub σ ε :=
  es.foldl Hub.publish hub

/-- The reader takes the first value of the queue, when there is one. -/
def Hub.receive (hub : Hub σ ε) (s : σ) : Option (Hub σ ε) :=
  match hub.queue s with
  | [] => none
  | e :: es => some
      { hub with
        queue := Function.update hub.queue s es
        received := Function.update hub.received s (hub.received s ++ [e]) }

/-- A new subscription is a new queue; only a live one is read. -/
def hubStep (hub : Hub σ ε) : HubEvent σ ε → Option (Hub σ ε)
  | .subscribe s => if s ∈ hub.subscribers then none else some (hub.subscribe s)
  | .unsubscribe s => some (hub.unsubscribe s)
  | .publish e => some (hub.publish e)
  | .receive s => if s ∈ hub.subscribers then hub.receive s else none

/-- What a subscription was handed, read or still queued. -/
def Hub.heard (hub : Hub σ ε) (s : σ) : List ε :=
  hub.received s ++ hub.queue s

variable {hub hub' : Hub σ ε} {s s' : σ} {e : ε} {es : List ε}

@[simp] theorem heard_subscribe_self : (hub.subscribe s).heard s = [] := by
  simp [Hub.heard, Hub.subscribe]

theorem heard_subscribe_of_ne (h : s' ≠ s) : (hub.subscribe s).heard s' = hub.heard s' := by
  simp [Hub.heard, Hub.subscribe, h]

@[simp] theorem heard_unsubscribe : (hub.unsubscribe s).heard s' = hub.heard s' := rfl

theorem heard_publish_of_mem (h : s ∈ hub.subscribers) :
    (hub.publish e).heard s = hub.heard s ++ [e] := by
  rw [Hub.heard, Hub.heard, List.append_assoc]
  exact congrArg _ (if_pos h)

/-- Reading moves a value from the queue to what was received. -/
theorem heard_receive (h : hub.receive s = some hub') : hub'.heard s' = hub.heard s' := by
  unfold Hub.receive at h
  cases hqueue : hub.queue s with
  | nil =>
      rw [hqueue] at h
      cases h
  | cons e es =>
      rw [hqueue] at h
      rw [← Option.some.inj h]
      by_cases hs : s' = s
      · subst hs
        simp [Hub.heard, hqueue]
      · simp [Hub.heard, hs]

theorem receive_published (h : hub.receive s = some hub') :
    hub'.published = hub.published ∧ hub'.subscribers = hub.subscribers := by
  unfold Hub.receive at h
  split at h
  · cases h
  · rw [← Option.some.inj h]
    exact ⟨rfl, rfl⟩

@[simp] theorem publishAll_nil : hub.publishAll [] = hub := rfl

@[simp] theorem publishAll_cons : hub.publishAll (e :: es) = (hub.publish e).publishAll es := rfl

@[simp] theorem publishAll_subscribers : (hub.publishAll es).subscribers = hub.subscribers := by
  induction es generalizing hub with
  | nil => rfl
  | cons e es ih => exact ih

theorem publishAll_published : (hub.publishAll es).published = hub.published ++ es := by
  induction es generalizing hub with
  | nil => exact (List.append_nil _).symm
  | cons e es ih =>
      rw [publishAll_cons, ih]
      exact List.append_assoc _ _ _

theorem exec_publish_map (es : List ε) :
    exec hubStep hub (es.map HubEvent.publish) = some (hub.publishAll es) := by
  induction es generalizing hub with
  | nil => rfl
  | cons e es ih => exact ih

/-- `s` is subscribed, and was handed exactly what followed on `past`. -/
structure HeardSince (past : List ε) (s : σ) (hub : Hub σ ε) : Prop where
  subscribed : s ∈ hub.subscribers
  heard : hub.published = past ++ hub.heard s

theorem heardSince_subscribe (hub : Hub σ ε) (s : σ) :
    HeardSince hub.published s (hub.subscribe s) := by
  refine ⟨Finset.mem_insert_self _ _, ?_⟩
  rw [heard_subscribe_self, List.append_nil]
  rfl

theorem heardSince_step {past : List ε} (h : HeardSince past s hub) {event : HubEvent σ ε}
    (hstay : event ≠ .unsubscribe s) (hstep : hubStep hub event = some hub') :
    HeardSince past s hub' := by
  cases event with
  | subscribe t =>
      simp only [hubStep] at hstep
      split at hstep
      · cases hstep
      · next hfree =>
        have hne : s ≠ t := fun heq => hfree (heq ▸ h.subscribed)
        rw [← Option.some.inj hstep]
        refine ⟨Finset.mem_insert_of_mem h.subscribed, ?_⟩
        rw [heard_subscribe_of_ne hne]
        exact h.heard
  | unsubscribe t =>
      have hne : s ≠ t := fun heq => hstay (heq ▸ rfl)
      rw [← Option.some.inj hstep]
      exact ⟨Finset.mem_erase.mpr ⟨hne, h.subscribed⟩, h.heard⟩
  | publish e =>
      rw [← Option.some.inj hstep]
      refine ⟨h.subscribed, ?_⟩
      rw [heard_publish_of_mem h.subscribed, ← List.append_assoc, ← h.heard]
      rfl
  | receive t =>
      simp only [hubStep] at hstep
      split at hstep
      · obtain ⟨hpublished, hsubscribers⟩ := receive_published hstep
        refine ⟨hsubscribers ▸ h.subscribed, ?_⟩
        rw [heard_receive hstep, hpublished]
        exact h.heard
      · cases hstep

/-- While it lasts, a subscription is handed exactly what is published, in order. -/
theorem heardSince_exec {past : List ε} (h : HeardSince past s hub)
    {events : List (HubEvent σ ε)} (hstay : .unsubscribe s ∉ events)
    (hrun : exec hubStep hub events = some hub') : HeardSince past s hub' := by
  induction events generalizing hub with
  | nil => exact Option.some.inj hrun ▸ h
  | cons event events ih =>
      obtain ⟨hub₁, hstep, hrun⟩ := exec_cons_some.mp hrun
      rw [List.mem_cons, not_or] at hstay
      exact ih (heardSince_step h (Ne.symm hstay.1) hstep) hstay.2 hrun

end RecruFlow.Lib.Broadcast
