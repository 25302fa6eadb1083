import HexAgent.Interleavings

/-!
Many threads that upload for the first time. Each of them looks for the collection before it takes
the lock, so all may find it missing; whoever comes first creates it, and the others learn
under the lock that it is there. A call to the server may fail, and it may fail after the server did it.
-/
namespace HexAgent.Collections
open Interleavings

/-! ### The adapter and the server -/

/-- What becomes of a call: the server does it, or refuses it, or does it and the answer is lost. -/
inductive Reply where
  | done
  | refused
  | lost
deriving DecidableEq

/-- A collection on the server. -/
structure Collection where
  size : Nat
  indexed : Bool := false
deriving DecidableEq

/-- What the threads share: the flag and the lock of the adapter, and the server. Beside them the
    calls of `create_collection`, and how many of these calls and those of `create_payload_index` raised. -/
structure Shared (ι : Type) where
  _collection_ready : Bool := false
  _lock : Option ι := none
  collection : Option Collection := none
  creations : Nat := 0
  failures : Nat := 0

/-- Where a thread is in `_ensure_collection`. -/
inductive Position where
  | called
  | checking
  | found
  | waiting
  | entered
  | creating
  | indexing
  | settling
  | leaving
  | failing
  | returned
  | raised
deriving DecidableEq

section
variable {ι : Type}

/-- The call `create_collection`; the server refuses to create what is there. -/
def create_collection (dim : Nat) (reply : Reply) (s : Shared ι) : Shared ι × Bool :=
  match s.collection,reply with
  | none,.done => ({ s with collection := some { size := dim }, creations := s.creations + 1 },true)
  | none,.lost =>
    ({ s with collection := some { size := dim }, creations := s.creations + 1, failures := s.failures + 1 },false)
  | _,_ => ({ s with creations := s.creations + 1, failures := s.failures + 1 },false)

/-- The call `create_payload_index` for the field `source`. -/
def create_payload_index (reply : Reply) (s : Shared ι) : Shared ι × Bool :=
  match s.collection,reply with
  | some there,.done => ({ s with collection := some { there with indexed := true } },true)
  | some there,.lost =>
    ({ s with collection := some { there with indexed := true }, failures := s.failures + 1 },false)
  | _,_ => ({ s with failures := s.failures + 1 },false)

/-- The next step of a thread in `_ensure_collection(dim)`, if it can take one. -/
def step (i : ι) (dim : Nat) (reply : Reply) (s : Shared ι) : Position → Option (Shared ι × Position)
  | .called => some (s,if s._collection_ready then .returned else .checking)
  -- the check stays outside the lock
  | .checking =>
    match reply with
    | .done => some (s,if s.collection.isSome then .found else .waiting)
    | _ => some (s,.raised)
  | .found => some ({ s with _collection_ready := true },.returned)
  | .waiting =>
    match s._lock with
    | none => some ({ s with _lock := some i },.entered)
    | some _ => none
  | .entered => some (s,if s._collection_ready then .leaving else .creating)
  | .creating =>
    match create_collection dim reply s with
    | (s,true) => some (s,.indexing)
    | (s,false) => some (s,.failing)
  | .indexing =>
    match create_payload_index reply s with
    | (s,true) => some (s,.settling)
    | (s,false) => some (s,.failing)
  | .settling => some ({ s with _collection_ready := true },.leaving)
  -- the lock is released whether the block ends or raises
  | .leaving => some ({ s with _lock := none },.returned)
  | .failing => some ({ s with _lock := none },.raised)
  | .returned | .raised => none

/-- A step with some answer of the server. -/
def Moves (dim : ι → Nat) (i : ι) (s : Shared ι) (t : Position) (s' : Shared ι) (t' : Position) : Prop :=
  ∃ reply, step i (dim i) reply s t = some (s',t')

/-- All threads have called, and there may be a collection. -/
def start (before : Option Collection) : Config ι (Shared ι) Position := ⟨{ collection := before },fun _ => .called⟩

/-! ### What a step does -/

/-- Every step of a thread, with what it finds and what it changes. -/
inductive Taken (i : ι) (dim : Nat) (s : Shared ι) : Position → Shared ι → Position → Prop where
  | ready (known : s._collection_ready = true) : Taken i dim s .called s .returned
  | unready (unknown : s._collection_ready = false) : Taken i dim s .called s .checking
  | finds (there : s.collection.isSome) : Taken i dim s .checking s .found
  | misses (gone : s.collection = none) : Taken i dim s .checking s .waiting
  | uncertain : Taken i dim s .checking s .raised
  | marks : Taken i dim s .found { s with _collection_ready := true } .returned
  | enters (free : s._lock = none) : Taken i dim s .waiting { s with _lock := some i } .entered
  | told (known : s._collection_ready = true) : Taken i dim s .entered s .leaving
  | untold (unknown : s._collection_ready = false) : Taken i dim s .entered s .creating
  | creates (gone : s.collection = none) : Taken i dim s .creating
      { s with collection := some { size := dim }, creations := s.creations + 1 } .indexing
  | misleads (gone : s.collection = none) : Taken i dim s .creating
      { s with collection := some { size := dim }, creations := s.creations + 1, failures := s.failures + 1 } .failing
  | uncreated : Taken i dim s .creating { s with creations := s.creations + 1, failures := s.failures + 1 } .failing
  | indexes {there : Collection} (here : s.collection = some there) : Taken i dim s .indexing
      { s with collection := some { there with indexed := true } } .settling
  | unknown {there : Collection} (here : s.collection = some there) : Taken i dim s .indexing
      { s with collection := some { there with indexed := true }, failures := s.failures + 1 } .failing
  | unindexed : Taken i dim s .indexing { s with failures := s.failures + 1 } .failing
  | settles : Taken i dim s .settling { s with _collection_ready := true } .leaving
  | leaves : Taken i dim s .leaving { s with _lock := none } .returned
  | fails : Taken i dim s .failing { s with _lock := none } .raised

theorem step_taken {i : ι} {dim : Nat} {reply : Reply} {s s' : Shared ι} {t t' : Position}
    (stepped : step i dim reply s t = some (s',t')) : Taken i dim s t s' t' := by
  cases t with
  | called =>
    rcases known : s._collection_ready
    · simp only [step,known] at stepped
      cases stepped
      exact .unready known
    · simp only [step,known] at stepped
      cases stepped
      exact .ready known
  | checking =>
    cases reply with
    | done =>
      rcases there : s.collection with _ | c
      · simp only [step,there] at stepped
        cases stepped
        exact .misses there
      · simp only [step,there] at stepped
        cases stepped
        exact .finds (by rw [there]; rfl)
    | refused => cases stepped; exact .uncertain
    | lost => cases stepped; exact .uncertain
  | found => cases stepped; exact .marks
  | waiting =>
    rcases free : s._lock with _ | j
    · simp only [step,free] at stepped
      cases stepped
      exact .enters free
    · simp [step,free] at stepped
  | entered =>
    rcases known : s._collection_ready
    · simp only [step,known] at stepped
      cases stepped
      exact .untold known
    · simp only [step,known] at stepped
      cases stepped
      exact .told known
  | creating =>
    rcases there : s.collection with _ | c
    · cases reply with
      | done =>
        simp only [step,create_collection,there] at stepped
        cases stepped
        exact .creates there
      | refused =>
        simp only [step,create_collection,there] at stepped
        cases stepped
        rw [← there]
        exact .uncreated
      | lost =>
        simp only [step,create_collection,there] at stepped
        cases stepped
        exact .misleads there
    · simp only [step,create_collection,there] at stepped
      cases stepped
      rw [← there]
      exact .uncreated
  | indexing =>
    rcases there : s.collection with _ | c
    · simp only [step,create_payload_index,there] at stepped
      cases stepped
      rw [← there]
      exact .unindexed
    · cases reply with
      | done =>
        simp only [step,create_payload_index,there] at stepped
        cases stepped
        exact .indexes there
      | refused =>
        simp only [step,create_payload_index,there] at stepped
        cases stepped
        rw [← there]
        exact .unindexed
      | lost =>
        simp only [step,create_payload_index,there] at stepped
        cases stepped
        exact .unknown there
  | settling => cases stepped; exact .settles
  | leaving => cases stepped; exact .leaves
  | failing => cases stepped; exact .fails
  | returned => cases stepped
  | raised => cases stepped

/-! ### What the threads know -/

/-- The thread holds the lock. -/
def Position.guarded : Position → Bool
  | .entered | .creating | .indexing | .settling | .leaving | .failing => true
  | _ => false

/-- Every creation failed, or the last one is known and was indexed. -/
def Calm (s : Shared ι) : Prop :=
  s.creations = s.failures ∨ s.creations = s.failures + 1 ∧ s._collection_ready = true ∧
    ∃ there, s.collection = some there ∧ there.indexed = true

variable {dim : ι → Nat} {before : Option Collection}

/-- What holds of the shared state whoever is where. -/
structure Common (dim : ι → Nat) (before : Option Collection) (s : Shared ι) : Prop where
  calm : s._lock = none → Calm s
  bounded : s.creations ≤ s.failures + 1
  ready : s._collection_ready = true → s.collection.isSome
  untouched : ∀ there, before = some there → s.collection = some there ∧ s.creations = 0 ∧ s.failures = 0
  created : before = none → ∀ there, s.collection = some there → 0 < s.creations ∧ ∃ i, there.size = dim i

/-- What a thread knows of the shared state where it is. -/
structure Knows (before : Option Collection) (i : ι) (s : Shared ι) (t : Position) : Prop where
  lock : t.guarded = true ↔ s._lock = some i
  missed : t = .waiting ∨ t.guarded = true → before = none
  there : t = .found ∨ t = .returned ∨ t = .leaving → s.collection.isSome
  calm : t = .entered ∨ t = .leaving → Calm s
  level : t = .creating ∨ t = .failing → s.creations = s.failures
  ahead : t = .indexing ∨ t = .settling → s.creations = s.failures + 1
  indexed : t = .settling → ∃ there, s.collection = some there ∧ there.indexed = true

theorem Calm.marked {s : Shared ι} (calm : Calm s) : Calm { s with _collection_ready := true } := by
  rcases calm with level | ⟨ahead,-,there⟩
  · exact .inl level
  · exact .inr ⟨ahead,rfl,there⟩

/-- A step of a thread without the lock may mark the collection as ready, or take the free lock. -/
theorem unguarded_step {i : ι} {s s' : Shared ι} {t t' : Position} (taken : Taken i (dim i) s t s' t')
    (outside : t.guarded = false) :
    s' = s ∨ t = .found ∧ s' = { s with _collection_ready := true } ∨ s._lock = none ∧ s' = { s with _lock := some i } := by
  cases taken with
  | marks => exact .inr (.inl ⟨rfl,rfl⟩)
  | enters free => exact .inr (.inr ⟨free,rfl⟩)
  | ready | unready | finds | misses | uncertain => exact .inl rfl
  | told | untold | creates | misleads | uncreated | indexes | unknown | unindexed | settles | leaves | fails =>
    cases outside

/-- The lock is taken by the thread that enters, and released by the one that leaves. -/
theorem lock_step {i : ι} {s s' : Shared ι} {t t' : Position} (taken : Taken i (dim i) s t s' t') :
    s'._lock = s._lock ∧ t'.guarded = t.guarded ∨ s'._lock = some i ∧ t'.guarded = true ∨
      s'._lock = none ∧ t'.guarded = false := by
  cases taken with
  | enters => exact .inr (.inl ⟨rfl,rfl⟩)
  | leaves | fails => exact .inr (.inr ⟨rfl,rfl⟩)
  | ready | unready | finds | misses | uncertain | marks | told | untold | creates | misleads | uncreated | indexes
  | unknown | unindexed | settles => exact .inl ⟨rfl,rfl⟩

/-- The collection never goes away. -/
theorem collection_stays {i : ι} {s s' : Shared ι} {t t' : Position} (taken : Taken i (dim i) s t s' t')
    (there : s.collection.isSome) : s'.collection.isSome := by
  cases taken <;> first | exact there | rfl

theorem knows_others {i j : ι} {s s' : Shared ι} {t t' u : Position} (apart : j ≠ i)
    (taken : Taken i (dim i) s t s' t') (mine : Knows before i s t) (theirs : Knows before j s u) : Knows before j s' u := by
  have stays := fun here => collection_stays taken (theirs.there here)
  by_cases held : u.guarded = true
  · -- the other one holds the lock, so this one is outside and can at most mark the collection
    have lock := theirs.lock.mp held
    have outside : t.guarded = false := by
      rcases inside : t.guarded
      · rfl
      · exact absurd (Option.some.inj (lock.symm.trans (mine.lock.mp inside))) apart
    rcases unguarded_step taken outside with rfl | ⟨-,rfl⟩ | ⟨free,-⟩
    · exact theirs
    · exact ⟨theirs.lock,theirs.missed,stays,fun here => (theirs.calm here).marked,theirs.level,theirs.ahead,theirs.indexed⟩
    · rw [free] at lock
      cases lock
  · have outside : ∀ {v}, u = v → v.guarded = true → False := fun same inside => held (same ▸ inside)
    refine ⟨⟨fun inside => absurd inside held,fun taken' => ?_⟩,theirs.missed,stays,
      fun here => (here.elim (outside · rfl) (outside · rfl)).elim,
      fun here => (here.elim (outside · rfl) (outside · rfl)).elim,
      fun here => (here.elim (outside · rfl) (outside · rfl)).elim,fun here => (outside here rfl).elim⟩
    rcases lock_step taken with ⟨same,-⟩ | ⟨same,-⟩ | ⟨same,-⟩
    · exact theirs.lock.mpr (same ▸ taken')
    · exact absurd (Option.some.inj (taken'.symm.trans same)) apart
    · rw [same] at taken'
      cases taken'

/-- The calls under the lock keep their count. -/
theorem common_shared {i : ι} {s s' : Shared ι} {t t' : Position} (taken : Taken i (dim i) s t s' t')
    (common : Common dim before s) (mine : Knows before i s t) : Common dim before s' := by
  have absent : t.guarded = true → ∀ there, before ≠ some there := fun inside there same => by
    rw [mine.missed (.inr inside)] at same
    cases same
  have held : t.guarded = true → s._lock ≠ none := fun inside free => by
    rw [mine.lock.mp inside] at free
    cases free
  cases taken with
  | ready | unready | finds | misses | uncertain | told | untold => exact common
  | marks =>
    exact ⟨fun free => (common.calm free).marked,common.bounded,fun _ => mine.there (.inl rfl),common.untouched,common.created⟩
  | enters free => exact ⟨fun taken => absurd taken (Option.some_ne_none i),common.bounded,common.ready,common.untouched,common.created⟩
  | creates gone =>
    refine ⟨fun free => absurd free (held rfl),Nat.le_of_eq (congrArg (· + 1) (mine.level (.inl rfl))),fun _ => rfl,fun there same => absurd same (absent rfl there),?_⟩
    rintro - there ⟨⟩
    exact ⟨Nat.succ_pos _,i,rfl⟩
  | misleads gone =>
    refine ⟨fun free => absurd free (held rfl),Nat.succ_le_succ common.bounded,fun _ => rfl,fun there same => absurd same (absent rfl there),?_⟩
    rintro - there ⟨⟩
    exact ⟨Nat.succ_pos _,i,rfl⟩
  | uncreated =>
    refine ⟨fun free => absurd free (held rfl),Nat.succ_le_succ common.bounded,common.ready,fun there same => absurd same (absent rfl there),?_⟩
    intro fresh there here
    exact ⟨Nat.succ_pos _,(common.created fresh there here).2⟩
  | @indexes there here =>
    refine ⟨fun free => absurd free (held rfl),common.bounded,fun _ => rfl,fun there same => absurd same (absent rfl there),?_⟩
    rintro fresh _ ⟨⟩
    exact common.created fresh there here
  | @unknown there here =>
    refine ⟨fun free => absurd free (held rfl),Nat.le_succ_of_le common.bounded,fun _ => rfl,fun there same => absurd same (absent rfl there),?_⟩
    rintro fresh _ ⟨⟩
    exact common.created fresh there here
  | unindexed =>
    exact ⟨fun free => absurd free (held rfl),Nat.le_succ_of_le common.bounded,common.ready,
      fun there same => absurd same (absent rfl there),common.created⟩
  | settles =>
    obtain ⟨there,here,-⟩ := mine.indexed rfl
    exact ⟨fun free => absurd free (held rfl),common.bounded,fun _ => by simp [here],fun there same => absurd same (absent rfl there),
      common.created⟩
  | leaves => exact ⟨fun _ => mine.calm (.inr rfl),common.bounded,common.ready,common.untouched,common.created⟩
  | fails => exact ⟨fun _ => .inl (mine.level (.inr rfl)),common.bounded,common.ready,common.untouched,common.created⟩

/-- What a thread knows where a step takes it. -/
theorem knows_own {i : ι} {s s' : Shared ι} {t t' : Position} (taken : Taken i (dim i) s t s' t')
    (common : Common dim before s) (mine : Knows before i s t) : Knows before i s' t' := by
  have held : t'.guarded = true ↔ s'._lock = some i := by
    rcases lock_step taken with ⟨same,still⟩ | ⟨same,inside⟩ | ⟨same,outside⟩
    · rw [same,still]
      exact mine.lock
    · simp [same,inside]
    · simp [same,outside]
  cases taken with
  | ready known =>
    exact ⟨held,by simp [Position.guarded],fun _ => common.ready known,by simp,by simp,by simp,by simp⟩
  | unready | uncertain =>
    exact ⟨held,by simp [Position.guarded],by simp,by simp,by simp,by simp,by simp⟩
  | finds there =>
    exact ⟨held,by simp [Position.guarded],fun _ => there,by simp,by simp,by simp,by simp⟩
  | misses gone =>
    refine ⟨held,fun _ => ?_,by simp,by simp,by simp,by simp,by simp⟩
    rcases given : before with _ | there
    · rfl
    · rw [(common.untouched there given).1] at gone
      cases gone
  | marks =>
    exact ⟨held,by simp [Position.guarded],fun _ => mine.there (.inl rfl),by simp,by simp,by simp,
      by simp⟩
  | enters free =>
    refine ⟨held,fun _ => mine.missed (.inl rfl),by simp,fun _ => ?_,by simp,by simp,by simp⟩
    exact common.calm free
  | told known =>
    exact ⟨held,fun _ => mine.missed (.inr rfl),fun _ => common.ready known,fun _ => mine.calm (.inl rfl),
      by simp,by simp,by simp⟩
  | untold unknown =>
    refine ⟨held,fun _ => mine.missed (.inr rfl),by simp,by simp,fun _ => ?_,by simp,by simp⟩
    rcases mine.calm (.inl rfl) with level | ⟨-,known,-⟩
    · exact level
    · rw [unknown] at known
      cases known
  | creates gone =>
    exact ⟨held,fun _ => mine.missed (.inr rfl),by simp,by simp,by simp,
      fun _ => congrArg (· + 1) (mine.level (.inl rfl)),by simp⟩
  | misleads gone =>
    exact ⟨held,fun _ => mine.missed (.inr rfl),by simp,by simp,
      fun _ => congrArg (· + 1) (mine.level (.inl rfl)),by simp,by simp⟩
  | uncreated =>
    exact ⟨held,fun _ => mine.missed (.inr rfl),by simp,by simp,
      fun _ => congrArg (· + 1) (mine.level (.inl rfl)),by simp,by simp⟩
  | indexes here =>
    exact ⟨held,fun _ => mine.missed (.inr rfl),by simp,by simp,by simp,fun _ => mine.ahead (.inl rfl),
      fun _ => ⟨_,rfl,rfl⟩⟩
  | unknown here =>
    exact ⟨held,fun _ => mine.missed (.inr rfl),by simp,by simp,fun _ => mine.ahead (.inl rfl),by simp,by simp⟩
  | unindexed =>
    exact ⟨held,fun _ => mine.missed (.inr rfl),by simp,by simp,fun _ => mine.ahead (.inl rfl),by simp,by simp⟩
  | settles =>
    obtain ⟨there,here,indexed⟩ := mine.indexed rfl
    exact ⟨held,fun _ => mine.missed (.inr rfl),fun _ => by simp [here],
      fun _ => .inr ⟨mine.ahead (.inr rfl),rfl,there,here,indexed⟩,by simp,by simp,by simp⟩
  | leaves =>
    exact ⟨held,by simp [Position.guarded],fun _ => mine.there (.inr (.inr rfl)),by simp,by simp,by simp,
      by simp⟩
  | fails =>
    exact ⟨held,by simp [Position.guarded],by simp,by simp,by simp,by simp,by simp⟩

theorem outlook (dim : ι → Nat) (before : Option Collection) :
    Outlook (Moves dim) (Common dim before) (Knows before) where
  own := fun ⟨_,stepped⟩ common mine => knows_own (step_taken stepped) common mine
  shared := fun ⟨_,stepped⟩ common mine => common_shared (step_taken stepped) common mine
  others := fun apart ⟨_,stepped⟩ _ mine theirs => knows_others apart (step_taken stepped) mine theirs

/-! ### Every order of steps -/

/-- A thread that is not done can take a step, unless it waits for another one. -/
theorem step_of {i : ι} {s : Shared ι} {t : Position} (going : t ≠ .returned ∧ t ≠ .raised)
    (free : t = .waiting → s._lock = none) : ∃ s' t', Moves dim i s t s' t' := by
  cases t with
  | returned => exact absurd rfl going.1
  | raised => exact absurd rfl going.2
  | waiting =>
    exact ⟨{ s with _lock := some i },.entered,.done,by simp only [step,free rfl]⟩
  | creating =>
    rcases made : create_collection (dim i) .done s with ⟨s',_ | _⟩
    · exact ⟨s',.failing,.done,by simp only [step,made]⟩
    · exact ⟨s',.indexing,.done,by simp only [step,made]⟩
  | indexing =>
    rcases made : create_payload_index .done s with ⟨s',_ | _⟩
    · exact ⟨s',.failing,.done,by simp only [step,made]⟩
    · exact ⟨s',.settling,.done,by simp only [step,made]⟩
  | called | checking | found | entered | settling | leaving | failing => exact ⟨_,_,.done,rfl⟩

variable [DecidableEq ι]

/-- At most one creation more than the calls that failed, and what the threads that are done can rely on. -/
structure Ensured (dim : ι → Nat) (before : Option Collection) (c : Config ι (Shared ι) Position) : Prop where
  alone : ∀ i j, (c.thread i).guarded = true → (c.thread j).guarded = true → i = j
  once : c.shared.creations ≤ c.shared.failures + 1
  there : ∀ i, c.thread i = .returned → c.shared.collection.isSome
  untouched : ∀ there, before = some there → c.shared.collection = some there ∧ c.shared.creations = 0
  size : before = none → ∀ there, c.shared.collection = some there → ∃ i, there.size = dim i
  whole : before = none → c.shared.failures = 0 → (∀ i, (c.thread i).guarded = false) →
    ∀ there, c.shared.collection = some there → there.indexed = true ∧ c.shared.creations = 1
  onward : ∀ i, c.thread i ≠ .returned → c.thread i ≠ .raised → ∃ d, Step (Moves dim) c d

/-- Whatever the order of their steps and the answers of the server, threads that upload for the first time create the
    collection at most once more than their calls fail, one at a time, and never wait for each other forever. -/
theorem collection_ensured (dim : ι → Nat) (before : Option Collection) {c : Config ι (Shared ι) Position}
    (run : Runs (Moves dim) (start before) c) : Ensured dim before c := by
  have begun : Common dim before (start (ι := ι) before).shared ∧
      ∀ i, Knows before i (start (ι := ι) before).shared ((start before).thread i) := by
    refine ⟨⟨fun _ => .inl rfl,Nat.zero_le _,nofun,fun there same => ⟨same,rfl,rfl⟩,fun fresh there here => ?_⟩,fun i => ?_⟩
    · rw [show (start before).shared.collection = before from rfl,fresh] at here
      cases here
    · exact ⟨by simp [start,Position.guarded],by simp [start,Position.guarded],by simp [start],by simp [start],by simp [start],
        by simp [start],by simp [start]⟩
  obtain ⟨common,knows⟩ := (outlook dim before).kept run begun
  refine ⟨fun i j here there => ?_,common.bounded,fun i done => (knows i).there (.inr (.inl done)),
    fun there same => ⟨(common.untouched there same).1,(common.untouched there same).2.1⟩,
    fun fresh there here => (common.created fresh there here).2,fun fresh unfailed outside there here => ?_,fun i going going' => ?_⟩
  · exact Option.some.inj (((knows i).lock.mp here).symm.trans ((knows j).lock.mp there))
  · have free : c.shared._lock = none := by
      rcases taken : c.shared._lock with _ | j
      · rfl
      · have inside := (knows j).lock.mpr taken
        rw [outside j] at inside
        cases inside
    have some := (common.created fresh there here).1
    rcases common.calm free with level | ⟨ahead,-,found,same,indexed⟩
    · omega
    · rw [here] at same
      cases same
      exact ⟨indexed,by omega⟩
  · by_cases waits : c.thread i = .waiting ∧ c.shared._lock ≠ none
    · obtain ⟨j,taken⟩ := Option.ne_none_iff_exists'.mp waits.2
      have inside := (knows j).lock.mpr taken
      have elsewhere : ∀ t : Position, t.guarded = false → c.thread j ≠ t := fun t outside same => by
        rw [same,outside] at inside
        cases inside
      obtain ⟨s',t',moved⟩ := @step_of ι dim j c.shared (c.thread j) ⟨elsewhere _ rfl,elsewhere _ rfl⟩
        (fun same => absurd same (elsewhere _ rfl))
      exact ⟨_,.mk moved⟩
    · obtain ⟨s',t',moved⟩ := @step_of ι dim i c.shared (c.thread i) ⟨going,going'⟩
        (fun here => not_not.mp fun taken => waits ⟨here,taken⟩)
      exact ⟨_,.mk moved⟩

end

/-! ### Two threads -/

/-- The widths of the vectors that two threads upload. -/
def widths (i : Bool) : Nat := if i then 3 else 2

/-- Both threads find no collection; the first creates it while the other one waits. -/
def twoFirst : Option (Config Bool (Shared Bool) Position) :=
  follow (fun i => step i (widths i)) (start none)
    ([true,false,true,false,false,false,false,false,false,false,true,true,true].map fun i => (i,.done))

theorem two_first_ensured : (∃ c, twoFirst = some c ∧ Ensured widths none c) ∧
    twoFirst.map (fun c => (c.shared.creations,c.shared.collection,c.thread true,c.thread false)) =
      some (1,some ⟨2,true⟩,.returned,.returned) := by
  have ran : twoFirst.map (fun c => (c.shared.creations,c.shared.collection,c.thread true,c.thread false)) =
      some (1,some ⟨2,true⟩,.returned,.returned) := by decide
  refine ⟨?_,ran⟩
  rcases followed : twoFirst with _ | c
  · rw [followed] at ran
    cases ran
  · exact ⟨c,rfl,collection_ensured widths none (follow_runs followed)⟩

end HexAgent.Collections
