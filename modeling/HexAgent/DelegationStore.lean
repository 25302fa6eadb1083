import HexAgent.Schemas
import Mathlib.Data.Option.NAry
import Mathlib.Data.Setoid.Basic

/-!
The delegation store. Each call is atomic under its lock, so any callers make one
sequence of calls. Whatever that sequence is, the progress of a delegation is
numbered from 1 without gaps and only grows, a result stays, and a repeated or a
raising call changes nothing.
-/
namespace HexAgent.DelegationStore
open HexAgent.Values HexAgent.Schemas Dicts

/-! ### The store -/

/-- The sequences of the records are 1, 2, ..., n, and no event occurs twice. -/
structure Numbered (items : List DelegationProgress) : Prop where
  sequences : items.map DelegationProgress.sequence = (List.range items.length).map fun n : Nat => (n : Int) + 1
  events : (items.map DelegationProgress.event_id).Nodup

/-- The requests, the progress and the results, by delegation. Every delegation that was
    started has its progress, numbered, and only these have a result. -/
structure InMemoryDelegationStore where
  requests : Dict String DelegationRequest := ∅
  recorded : Dict String (List DelegationProgress) := ∅
  results : Dict String DelegationResult := ∅
  opened : recorded.keys = requests.keys
  numbered : ∀ id items, recorded.get id = some items → Numbered items
  known : ∀ id ∈ results.keys, id ∈ requests.keys

theorem numbered_nil : Numbered [] := ⟨rfl,List.nodup_nil⟩

theorem numbered_append {items : List DelegationProgress} (numbered : Numbered items) {progress : DelegationProgress}
    (next : progress.sequence = items.length + 1) (new : ∀ item ∈ items, item.event_id ≠ progress.event_id) :
    Numbered (items ++ [progress]) := by
  constructor
  · rw [List.map_append,numbered.sequences,List.length_append,List.length_singleton,List.range_succ,List.map_append]
    simp [next]
  · rw [List.map_append]
    refine numbered.events.append (List.nodup_singleton _) ?_
    simpa using fun item member same => new item member same

namespace InMemoryDelegationStore

def empty : InMemoryDelegationStore := ⟨∅,∅,∅,rfl,nofun,nofun⟩

variable (store : InMemoryDelegationStore)

/-- The progress of a delegation; none for an unknown one. -/
def progress (delegation_id : String) : List DelegationProgress := (store.recorded.get delegation_id).getD []

def result (delegation_id : String) : Option DelegationResult := store.results.get delegation_id

/-- The delegation was started. -/
def Started (delegation_id : String) : Prop := delegation_id ∈ store.requests.keys

instance (delegation_id : String) : Decidable (store.Started delegation_id) :=
  inferInstanceAs (Decidable (delegation_id ∈ store.requests.keys))

/-- The store with a delegation that was not there. -/
def opening (request : DelegationRequest) (new : request.delegation_id ∉ store.requests.keys) : InMemoryDelegationStore :=
  { store with
    requests := store.requests.put request.delegation_id request
    recorded := store.recorded.put request.delegation_id []
    opened := by
      have absent : request.delegation_id ∉ store.recorded.keys := by rw [store.opened]; exact new
      rw [Dict.keys_put,Dict.keys_put,if_neg absent,if_neg new,store.opened]
    numbered := by
      intro id items found
      rw [Dict.get_put] at found
      split at found
      · cases found; exact numbered_nil
      · exact store.numbered id items found
    known := fun id member => Dict.mem_keys_put.mpr (.inr (store.known id member)) }

/-- The store with one more record of a delegation. -/
def recording (progress : DelegationProgress) (items : List DelegationProgress)
    (there : store.recorded.get progress.delegation_id = some items) (next : progress.sequence = items.length + 1)
    (new : ∀ item ∈ items, item.event_id ≠ progress.event_id) : InMemoryDelegationStore :=
  { store with
    recorded := store.recorded.put progress.delegation_id (items ++ [progress])
    opened := by
      rw [Dict.keys_put,if_pos (Dict.mem_keys_of_get there),store.opened]
    numbered := by
      intro id items' found
      rw [Dict.get_put] at found
      split at found
      · cases found; exact numbered_append (store.numbered _ items there) next new
      · exact store.numbered id items' found }

/-- The store with the result of a delegation. -/
def finishing (result : DelegationResult) (started : result.delegation_id ∈ store.requests.keys) : InMemoryDelegationStore :=
  { store with
    results := store.results.put result.delegation_id result
    known := by
      intro id member
      rcases Dict.mem_keys_put.mp member with rfl | before
      · exact started
      · exact store.known id before }

section
variable {store}

theorem progress_opening {request : DelegationRequest} (new : request.delegation_id ∉ store.requests.keys) (id : String) :
    (store.opening request new).progress id = store.progress id := by
  have absent : store.recorded.get request.delegation_id = none := by
    rw [Dict.get_eq_none_iff,store.opened]
    exact new
  simp only [progress,opening,Dict.get_put]
  split
  · next here => rw [here,absent]; rfl
  · rfl

theorem progress_recording {progress : DelegationProgress} {items : List DelegationProgress}
    (there : store.recorded.get progress.delegation_id = some items) (next : progress.sequence = items.length + 1)
    (new : ∀ item ∈ items, item.event_id ≠ progress.event_id) (id : String) :
    (store.recording progress items there next new).progress id =
      if id = progress.delegation_id then items ++ [progress] else store.progress id := by
  simp only [InMemoryDelegationStore.progress,recording,Dict.get_put]
  split <;> rfl

theorem result_finishing {result : DelegationResult} (started : result.delegation_id ∈ store.requests.keys) (id : String) :
    (store.finishing result started).result id = if id = result.delegation_id then some result else store.result id :=
  Dict.get_put ..

/-- The records of a delegation are numbered. -/
theorem progress_numbered (store : InMemoryDelegationStore) (id : String) : Numbered (store.progress id) := by
  unfold progress
  rcases found : store.recorded.get id with _ | items
  · exact numbered_nil
  · exact store.numbered id items found

theorem progress_started {id : String} (some : store.progress id ≠ []) : store.Started id := by
  unfold progress at some
  rcases found : store.recorded.get id with _ | items
  · rw [found] at some
    exact absurd rfl some
  · rw [Started,← store.opened]
    exact Dict.mem_keys_of_get found

theorem result_started {id : String} {r : DelegationResult} (found : store.result id = some r) : store.Started id :=
  store.known id (Dict.mem_keys_of_get found)

end

/-! ### The calls -/

def start (request : DelegationRequest) : Except PyError Unit × InMemoryDelegationStore :=
  if new : request.delegation_id ∉ store.requests.keys then (.ok (),store.opening request new)
  else (.error (.ValueError ("Delegation already exists: " ++ request.delegation_id)),store)

/-- A record whose event is there is ignored; any other must have the next sequence. -/
def append_progress (progress : DelegationProgress) : Except PyError Unit × InMemoryDelegationStore :=
  match there : store.recorded.get progress.delegation_id with
  | none => (.error (.LookupError ("Unknown delegation: " ++ progress.delegation_id)),store)
  | some items =>
    if new : ∀ item ∈ items, item.event_id ≠ progress.event_id then
      if next : progress.sequence = items.length + 1 then (.ok (),store.recording progress items there next new)
      else (.error (.ValueError ("Progress sequence must be " ++ toString (items.length + 1) ++ " for " ++
        progress.delegation_id ++ ", got " ++ toString progress.sequence ++ ".")),store)
    else (.ok (),store)

section
-- `==` of results, an equivalence
variable [Setoid DelegationResult] [DecidableRel fun r s : DelegationResult => r ≈ s]

/-- A result is stored unless a different one is there. -/
def finish (result : DelegationResult) : Except PyError Unit × InMemoryDelegationStore :=
  if started : result.delegation_id ∈ store.requests.keys then
    match store.results.get result.delegation_id with
    | some existing =>
      if existing ≈ result then (.ok (),store.finishing result started)
      else (.error (.ValueError ("Delegation already has a different result: " ++ result.delegation_id)),store)
    | none => (.ok (),store.finishing result started)
  else (.error (.LookupError ("Unknown delegation: " ++ result.delegation_id)),store)

end
end InMemoryDelegationStore

open InMemoryDelegationStore

/-! ### What one call can do -/

/-- A call of a client. -/
inductive Call where
  | start (request : DelegationRequest)
  | append_progress (progress : DelegationProgress)
  | finish (result : DelegationResult)

/-- Sending a stored event again is ignored, whatever its sequence. -/
theorem repeated_unchanged {store : InMemoryDelegationStore} {progress item : DelegationProgress} (stored : item ∈ store.progress progress.delegation_id)
    (same : item.event_id = progress.event_id) : store.append_progress progress = (.ok (),store) := by
  unfold append_progress
  split
  · next absent =>
    rw [InMemoryDelegationStore.progress,absent] at stored
    cases stored
  · next items there =>
    rw [InMemoryDelegationStore.progress,there] at stored
    rw [dif_neg fun new => new item stored same]

/-- A record is taken when it is the next of its delegation, else nothing changes. -/
theorem append_cases {store : InMemoryDelegationStore} (progress : DelegationProgress) :
    (store.append_progress progress).2 = store ∨ ∃ items there next new,
      (store.append_progress progress).2 = store.recording progress items there next new := by
  unfold append_progress
  split
  · exact .inl rfl
  · next items there =>
    split
    · next new =>
      split
      · next next => exact .inr ⟨items,there,next,new,rfl⟩
      · exact .inl rfl
    · exact .inl rfl

section
variable [Setoid DelegationResult]

/-- Records are only added after those that are there, delegations stay started, and a
    stored result stays, up to equality. -/
structure Grows (s t : InMemoryDelegationStore) : Prop where
  started : ∀ id, s.Started id → t.Started id
  progress : ∀ id, s.progress id <+: t.progress id
  result : ∀ id r, s.result id = some r → ∃ r', t.result id = some r' ∧ r ≈ r'

/-- The same requests, the same records and, up to equality, the same results. -/
structure Unchanged (s t : InMemoryDelegationStore) : Prop where
  requests : t.requests = s.requests
  recorded : t.recorded = s.recorded
  results : ∀ id, Option.Rel (fun r r' => r ≈ r') (s.result id) (t.result id)

instance : IsPreorder InMemoryDelegationStore Grows where
  refl _ := ⟨fun _ started => started,fun _ => List.prefix_rfl,fun _ r found => ⟨r,found,Setoid.refl r⟩⟩
  trans _ _ _ first second := {
    started := fun id started => second.started id (first.started id started)
    progress := fun id => (first.progress id).trans (second.progress id)
    result := fun id r found => by
      obtain ⟨r',found',same⟩ := first.result id r found
      obtain ⟨r'',found'',same'⟩ := second.result id r' found'
      exact ⟨r'',found'',Setoid.trans same same'⟩ }

variable {store : InMemoryDelegationStore}

theorem unchanged_refl (store : InMemoryDelegationStore) : Unchanged store store := by
  refine ⟨rfl,rfl,fun id => ?_⟩
  rcases store.result id with _ | r
  · exact .none
  · exact .some (Setoid.refl r)

/-- Storing an equal result again leaves the store as it is. -/
theorem unchanged_finishing {existing result : DelegationResult} (started : result.delegation_id ∈ store.requests.keys)
    (there : store.results.get result.delegation_id = some existing) (same : existing ≈ result) :
    Unchanged store (store.finishing result started) := by
  refine ⟨rfl,rfl,fun id => ?_⟩
  rw [result_finishing]
  split
  · next here =>
    rw [here,InMemoryDelegationStore.result,there]
    exact .some same
  · exact (unchanged_refl store).results id

theorem start_grows (request : DelegationRequest) : Grows store (store.start request).2 := by
  unfold start
  split
  · next new =>
    refine ⟨fun id started => Dict.mem_keys_put.mpr (.inr started),fun id => ?_,fun id r found => ⟨r,found,Setoid.refl r⟩⟩
    rw [progress_opening]
  · exact refl _

theorem append_grows (progress : DelegationProgress) : Grows store (store.append_progress progress).2 := by
  rcases @append_cases store progress with unchanged | ⟨items,there,next,new,recorded⟩
  · rw [unchanged]
    exact refl _
  · rw [recorded]
    refine ⟨fun id started => started,fun id => ?_,fun id r found => ⟨r,found,Setoid.refl r⟩⟩
    rw [progress_recording]
    split
    · next here =>
      rw [here,show store.progress progress.delegation_id = items by
        rw [InMemoryDelegationStore.progress,there]; rfl]
      exact List.prefix_append ..
    · exact List.prefix_rfl

theorem unchanged_grows {t : InMemoryDelegationStore} (unchanged : Unchanged store t) : Grows store t := by
  refine ⟨fun id started => ?_,fun id => ?_,fun id r found => ?_⟩
  · rw [Started,unchanged.requests]
    exact started
  · rw [InMemoryDelegationStore.progress,InMemoryDelegationStore.progress,unchanged.recorded]
  · have related := unchanged.results id
    rw [found] at related
    rcases there : t.result id with _ | r'
    · rw [there] at related
      cases related
    · rw [there] at related
      cases related with
      | some same => exact ⟨r',rfl,same⟩

variable [DecidableRel fun r s : DelegationResult => r ≈ s]

/-- Finishing twice with equal results, or raising, changes nothing; else the result is new. -/
theorem finish_cases (result : DelegationResult) : Unchanged store (store.finish result).2 ∨
    ∃ started, store.result result.delegation_id = none ∧ (store.finish result).2 = store.finishing result started := by
  unfold finish
  split
  · next started =>
    split
    · next existing there =>
      split
      · next same => exact .inl (unchanged_finishing started there same)
      · exact .inl (unchanged_refl store)
    · next absent => exact .inr ⟨started,absent,rfl⟩
  · exact .inl (unchanged_refl store)

theorem finish_grows (result : DelegationResult) : Grows store (store.finish result).2 := by
  rcases @finish_cases _ store _ result with unchanged | ⟨started,absent,same⟩
  · exact unchanged_grows unchanged
  · rw [same]
    refine ⟨fun id started => started,fun id => List.prefix_rfl,fun id r found => ⟨r,?_,Setoid.refl r⟩⟩
    rw [result_finishing]
    split
    · next here => rw [here,absent] at found; cases found
    · exact found

/-! ### Any sequence of calls -/

def Call.run (store : InMemoryDelegationStore) : Call → Except PyError Unit × InMemoryDelegationStore
  | .start request => store.start request
  | .append_progress progress => store.append_progress progress
  | .finish result => store.finish result

/-- The store after a sequence of calls, raising ones included. -/
def runs (store : InMemoryDelegationStore) (calls : List Call) : InMemoryDelegationStore :=
  calls.foldl (fun store call => (call.run store).2) store

theorem call_grows (call : Call) : Grows store (call.run store).2 := by
  cases call with
  | start request => exact start_grows request
  | append_progress progress => exact append_grows progress
  | finish result => exact finish_grows result

theorem runs_grows (calls : List Call) (store : InMemoryDelegationStore) : Grows store (runs store calls) := by
  induction calls generalizing store with
  | nil => exact refl store
  | cons call rest ih => exact Trans.trans (call_grows call) (ih (call.run store).2)

/-- A call that raises leaves the store as it is. -/
theorem raised_unchanged {call : Call} {error : PyError} (raised : (call.run store).1 = .error error) :
    (call.run store).2 = store := by
  revert raised
  cases call with
  | start request =>
    show (store.start request).1 = _ → (store.start request).2 = _
    unfold start
    split
    · exact nofun
    · exact fun _ => rfl
  | append_progress progress =>
    show (store.append_progress progress).1 = _ → (store.append_progress progress).2 = _
    unfold append_progress
    split
    · exact fun _ => rfl
    · split
      · split
        · exact nofun
        · exact fun _ => rfl
      · exact nofun
  | finish result =>
    show (store.finish result).1 = _ → (store.finish result).2 = _
    unfold finish
    split
    · split
      · split
        · exact nofun
        · exact fun _ => rfl
      · exact nofun
    · exact fun _ => rfl

theorem equal_unchanged {result existing : DelegationResult} (stored : store.result result.delegation_id = some existing)
    (same : existing ≈ result) : (store.finish result).1 = .ok () ∧ Unchanged store (store.finish result).2 := by
  have started : result.delegation_id ∈ store.requests.keys := result_started stored
  unfold finish
  rw [dif_pos started]
  split
  · next existing' there =>
    rw [InMemoryDelegationStore.result,there] at stored
    cases stored
    rw [if_pos same]
    exact ⟨rfl,unchanged_finishing started there same⟩
  · next absent =>
    rw [InMemoryDelegationStore.result,absent] at stored
    cases stored

/-- What holds between any moment of a store and any later one. -/
structure Kept (s t : InMemoryDelegationStore) : Prop where
  numbered : ∀ id, Numbered (t.progress id)
  grows : Grows s t
  recorded : ∀ id, t.progress id ≠ [] → t.Started id
  finished : ∀ id r, t.result id = some r → t.Started id
  raising : ∀ (call : Call) error, (call.run t).1 = .error error → (call.run t).2 = t
  repeated : ∀ progress, ∀ item ∈ t.progress progress.delegation_id, item.event_id = progress.event_id →
    (Call.append_progress progress).run t = (.ok (),t)
  equal : ∀ result existing, t.result result.delegation_id = some existing → existing ≈ result →
    ((Call.finish result).run t).1 = .ok () ∧ Unchanged t ((Call.finish result).run t).2

/-- Whatever calls are made, by any callers in any order, the store keeps its records in
    order and never takes anything back. -/
theorem calls_kept (earlier later : List Call) :
    Kept (runs empty earlier) (runs empty (earlier ++ later)) where
  numbered := progress_numbered _
  grows := by
    rw [runs,runs,List.foldl_append]
    exact runs_grows later _
  recorded _ some := progress_started some
  finished _ _ found := result_started found
  raising _ _ raised := raised_unchanged raised
  repeated _ _ stored same := repeated_unchanged stored same
  equal _ _ stored same := equal_unchanged stored same

end
end HexAgent.DelegationStore
