import HexAgent.Collections
import HexAgent.Uploads

/-!
Ingests that run at the same time over one Qdrant collection. A thread embeds the chunks of a
file on its own and then sends its calls to the server one by one, so the calls of other threads
come in between. While no two threads have a file in common, every source is at every moment as it
was, without chunks, or completely replaced.
-/
namespace HexAgent.ParallelIngests
open HexAgent.Values HexAgent.Rag HexAgent.Uploads HexAgent.Uploads.QdrantVectorStore HexAgent.Collections
open HexAgent.Events Interleavings Dicts

/-! ### The calls of a thread -/

section
variable {uuid5 : String ↪ String} {α : Type}

/-- How many points the source has. -/
def count (store : QdrantVectorStore uuid5 α) (source : String) : Nat :=
  match store.points with
  | none => 0
  | some there => there.size - (others source there).size

/-- The collection, created when it was not there. -/
def ensured (store : QdrantVectorStore uuid5 α) : QdrantVectorStore uuid5 α where
  collection := store.collection
  _collection_ready := true
  points := some (store.points.getD ∅)
  ready _ := rfl
  identified := by
    rintro _ ⟨⟩ id p got
    rcases found : store.points with _ | points
    · rw [found] at got
      cases got
    · rw [found] at got
      exact store.identified points found id p got

/-- The chunks of a file that are embedded. -/
structure Batch (α : Type) where
  file : Entry
  texts : List String
  vectors : List (List α)

def Batch.chunks (batch : Batch α) : List (Chunk α) := chunksOf batch.file.source batch.texts batch.vectors

/-- Where a thread is: before a file, before one of the calls for a batch, or done. -/
inductive Phase (α : Type) where
  | next (files : List Entry) (tally : Tally)
  | clearing (batch : Batch α) (files : List Entry) (tally : Tally)
  | counting (batch : Batch α) (files : List Entry) (tally : Tally)
  | deleting (batch : Batch α) (files : List Entry) (tally : Tally)
  | checking (batch : Batch α) (files : List Entry) (tally : Tally)
  | sending (batch : Batch α) (files : List Entry) (tally : Tally)
  | done (tally : Tally)
  | stopped

/-- What a thread learns in a step: the answer of the embedder, or what becomes of its call. -/
inductive Answer (α : Type) where
  | embeds (outcome : Except PyError (List (List α)))
  | server (reply : Reply)

/-- A call that changes the store, and where the thread goes when it is done. -/
def sent (reply : Reply) (before after : QdrantVectorStore uuid5 α) (phase : Phase α) : QdrantVectorStore uuid5 α × Phase α :=
  match reply with
  | .done => (after,phase)
  | .refused => (before,.stopped)
  | .lost => (after,.stopped)

/-- The next step of a thread in `RagService.ingest`, if the answer is one that it waits for. -/
def step (cfg : RagConfig) (answer : Answer α) (store : QdrantVectorStore uuid5 α) :
    Phase α → Option (QdrantVectorStore uuid5 α × Phase α)
  | .next [] tally => some (store,.done tally)
  | .next (file :: rest) tally =>
    match file.read_text,answer with
    | .error _,_ => some (store,.stopped)
    | .ok text,.embeds outcome =>
      let texts := chunk_text text cfg.chunk_size cfg.chunk_overlap
      if texts = [] then some (store,.next rest (tally.add file.source none))
      else
        match outcome with
        | .error _ => some (store,.stopped)
        | .ok vectors =>
          if vectors.length ≠ texts.length then some (store,.stopped)
          else some (store,.clearing ⟨file,texts,vectors⟩ rest tally)
    | .ok _,.server _ => none
  -- `delete_by_source` asks for the collection, counts the points of the source and deletes them
  | .clearing batch rest tally =>
    match answer with
    | .server reply => some (sent reply store store
        (if store.points.isSome then .counting batch rest tally else .checking batch rest tally))
    | .embeds _ => none
  | .counting batch rest tally =>
    match answer with
    | .server reply => some (sent reply store store
        (if count store batch.file.source = 0 then .checking batch rest tally else .deleting batch rest tally))
    | .embeds _ => none
  | .deleting batch rest tally =>
    match answer with
    | .server reply => some (sent reply store (store.delete_by_source batch.file.source).2 (.checking batch rest tally))
    | .embeds _ => none
  -- `upsert` checks the batch, ensures the collection and sends the points
  | .checking batch rest tally =>
    match answer with
    | .server reply =>
      match refusal batch.chunks with
      | some _ => some (store,.stopped)
      | none => some (sent reply store (ensured store) (.sending batch rest tally))
    | .embeds _ => none
  | .sending batch rest tally =>
    match answer with
    | .server reply => some (sent reply store (store.uploading batch.chunks)
        (.next rest (tally.add batch.file.source (some batch.texts.length))))
    | .embeds _ => none
  | .done _ | .stopped => none

/-- A step with some answer. -/
def Moves {ι : Type} (cfg : RagConfig) (_ : ι) (store : QdrantVectorStore uuid5 α) (phase : Phase α)
    (store' : QdrantVectorStore uuid5 α) (phase' : Phase α) : Prop :=
  ∃ answer, step cfg answer store phase = some (store',phase')

/-! ### What the calls do to a source -/

variable {store store' : QdrantVectorStore uuid5 α} {cfg : RagConfig}

theorem count_zero {source : String} (none : count store source = 0) : store.Absent source := by
  intro i
  rcases found : store.points with _ | there
  · simp [stored,found]
  · simp only [count,found] at none
    -- nothing is filtered out, so the source has no point
    have all : there.filter (fun p => decide (p.source ≠ source)) = there := by
      have length : (there.pairs.filter fun pair => decide (pair.2.source ≠ source)).length = there.pairs.length :=
        Nat.le_antisymm (List.length_filter_le _ _) (Nat.le_of_sub_eq_zero none)
      have same := List.length_filter_eq_length_iff.mp length
      have pairs : there.pairs.filter (fun pair => decide (pair.2.source ≠ source)) = there.pairs := List.filter_eq_self.mpr same
      cases there
      simp only [Dict.filter]
      congr
    rcases got : store.stored source i with _ | p
    · rfl
    · have owner := stored_source got
      have here : there.get (_point_id uuid5 source i) = some p := by simpa [stored,found] using got
      rw [← all,Dict.get_filter,Option.filter_eq_some_iff] at here
      simp [owner] at here

theorem stored_ensured (store : QdrantVectorStore uuid5 α) (s : String) (i : Nat) : (ensured store).stored s i = store.stored s i := by
  simp [stored,ensured]

theorem missing_absent {source : String} (missing : store.points.isSome = false) : store.Absent source := by
  intro i
  rw [Option.isSome_eq_false_iff,Option.isNone_iff_eq_none] at missing
  simp [stored,missing]

/-! ### What a thread has done -/

/-- The points of the source are what they were. -/
def Kept (before store : QdrantVectorStore uuid5 α) (source : String) : Prop :=
  ∀ i, store.stored source i = before.stored source i

/-- The file is ingested: its source is renewed, or left alone because there is no text. -/
def Settled (cfg : RagConfig) (before store : QdrantVectorStore uuid5 α) (file : Entry) : Prop :=
  ∃ text, file.read_text = .ok text ∧ if chunk_text text cfg.chunk_size cfg.chunk_overlap = []
    then Kept before store file.source else Renewed cfg file store

/-- How many chunks the file has, if it has any. -/
def chunkCount (cfg : RagConfig) (file : Entry) : Option Nat :=
  match file.read_text with
  | .ok text =>
    let texts := chunk_text text cfg.chunk_size cfg.chunk_overlap
    if texts = [] then none else some texts.length
  | .error _ => none

/-- The files that have chunks, with how many they have together. -/
def tallied (cfg : RagConfig) (files : List Entry) : Tally :=
  files.foldl (fun tally file => tally.add file.source (chunkCount cfg file)) {}

/-- The first files are ingested and counted, then come those at hand, and the rest is not begun. -/
structure Through (cfg : RagConfig) (before : QdrantVectorStore uuid5 α) (files : List Entry)
    (store : QdrantVectorStore uuid5 α) (past present rest : List Entry) (tally : Tally) : Prop where
  split : files = past ++ (present ++ rest)
  settled : ∀ file ∈ past, Settled cfg before store file
  ahead : ∀ file ∈ rest, Kept before store file.source
  told : tally = tallied cfg past

/-- The batch is that of its file, with a vector for each chunk. -/
structure Embeds (cfg : RagConfig) (batch : Batch α) : Prop where
  texts : ∃ text, batch.file.read_text = .ok text ∧ batch.texts = chunk_text text cfg.chunk_size cfg.chunk_overlap
  some : batch.texts ≠ []
  vectors : batch.vectors.length = batch.texts.length

/-- What a thread knows of its sources where it is. -/
def Knows (cfg : RagConfig) (before : QdrantVectorStore uuid5 α) (files : List Entry)
    (store : QdrantVectorStore uuid5 α) : Phase α → Prop
  | .next rest tally => ∃ past, Through cfg before files store past [] rest tally
  | .clearing batch rest tally | .counting batch rest tally | .deleting batch rest tally => Embeds cfg batch ∧
    Kept before store batch.file.source ∧ ∃ past, Through cfg before files store past [batch.file] rest tally
  | .checking batch rest tally | .sending batch rest tally => Embeds cfg batch ∧
    store.Absent batch.file.source ∧ ∃ past, Through cfg before files store past [batch.file] rest tally
  | .done tally => Through cfg before files store files [] [] tally
  | .stopped => ∃ past file rest tally, Through cfg before files store past [file] rest tally ∧
    (Kept before store file.source ∨ store.Absent file.source ∨ Renewed cfg file store)

/-- The points of a source are the same in both stores. -/
def SameAt (store store' : QdrantVectorStore uuid5 α) (source : String) : Prop :=
  ∀ i, store'.stored source i = store.stored source i

variable {before : QdrantVectorStore uuid5 α} {files past present rest : List Entry} {tally : Tally} {file : Entry}
  {batch : Batch α}

theorem SameAt.kept {source : String} (same : SameAt store store' source) (kept : Kept before store source) :
    Kept before store' source := fun i => (same i).trans (kept i)

theorem SameAt.absent {source : String} (same : SameAt store store' source) (absent : store.Absent source) :
    store'.Absent source := fun i => (same i).trans (absent i)

theorem SameAt.renewed (same : SameAt store store' file.source) (renewed : Renewed cfg file store) :
    Renewed cfg file store' := by
  obtain ⟨text,vectors,read,length,there⟩ := renewed
  exact ⟨text,vectors,read,length,fun i => (same i).trans (there i)⟩

theorem SameAt.settled (same : SameAt store store' file.source) (settled : Settled cfg before store file) :
    Settled cfg before store' file := by
  obtain ⟨text,read,there⟩ := settled
  refine ⟨text,read,?_⟩
  split
  · next empty =>
    rw [if_pos empty] at there
    exact same.kept there
  · next some =>
    rw [if_neg some] at there
    exact same.renewed there

theorem Through.same (through : Through cfg before files store past present rest tally)
    (same : ∀ file ∈ past ++ rest, SameAt store store' file.source) :
    Through cfg before files store' past present rest tally :=
  ⟨through.split,fun file member => (same file (List.mem_append_left _ member)).settled (through.settled file member),
    fun file member => (same file (List.mem_append_right _ member)).kept (through.ahead file member),through.told⟩

/-- What a thread knows depends on its own sources only. -/
theorem Knows.same {phase : Phase α} (knows : Knows cfg before files store phase)
    (same : ∀ file ∈ files, SameAt store store' file.source) : Knows cfg before files store' phase := by
  have within : ∀ {past present rest tally}, Through cfg before files store past present rest tally →
      Through cfg before files store' past present rest tally ∧ ∀ file ∈ present, SameAt store store' file.source := by
    intro past present rest tally through
    have inside : ∀ file, file ∈ past ∨ file ∈ present ∨ file ∈ rest → SameAt store store' file.source := fun file member =>
      same file (by rw [through.split]; simpa using member)
    exact ⟨through.same fun file member => inside file ((List.mem_append.mp member).imp_right .inr),
      fun file member => inside file (.inr (.inl member))⟩
  cases phase with
  | next rest tally =>
    obtain ⟨past,through⟩ := knows
    exact ⟨past,(within through).1⟩
  | clearing batch rest tally | counting batch rest tally | deleting batch rest tally =>
    obtain ⟨embeds,kept,past,through⟩ := knows
    exact ⟨embeds,((within through).2 _ (List.mem_singleton_self _)).kept kept,past,(within through).1⟩
  | checking batch rest tally | sending batch rest tally =>
    obtain ⟨embeds,absent,past,through⟩ := knows
    exact ⟨embeds,((within through).2 _ (List.mem_singleton_self _)).absent absent,past,(within through).1⟩
  | done tally => exact (within knows).1
  | stopped =>
    obtain ⟨past,file,rest,tally,through,last⟩ := knows
    have here := (within through).2 _ (List.mem_singleton_self file)
    exact ⟨past,file,rest,tally,(within through).1,last.imp here.kept (Or.imp here.absent here.renewed)⟩

/-! ### One step -/

theorem sent_cases {reply : Reply} {after s : QdrantVectorStore uuid5 α} {phase t : Phase α}
    (said : some (sent reply store after phase) = some (s,t)) : s = after ∧ t = phase ∨ (s = store ∨ s = after) ∧ t = .stopped := by
  cases reply with
  | done => cases said; exact .inl ⟨rfl,rfl⟩
  | refused => cases said; exact .inr ⟨.inl rfl,rfl⟩
  | lost => cases said; exact .inr ⟨.inr rfl,rfl⟩

/-- A call for a batch changes only the points of its source. -/
theorem Through.current (distinct : (files.map Entry.source).Nodup)
    (through : Through cfg before files store past [file] rest tally)
    (same : ∀ source, source ≠ file.source → SameAt store store' source) :
    Through cfg before files store' past [file] rest tally := by
  refine through.same fun other member => same _ fun clash => ?_
  rw [through.split,List.singleton_append,(List.perm_middle.map Entry.source).nodup_iff,List.map_cons,List.nodup_cons] at distinct
  exact distinct.1 (clash ▸ List.mem_map_of_mem member)

/-- A file that is left without a batch passes to the files that are done. -/
theorem Through.pass (through : Through cfg before files store past [file] rest tally)
    (settled : Settled cfg before store file) {stored : Option Nat} (counted : stored = chunkCount cfg file) :
    Through cfg before files store (past ++ [file]) [] rest (tally.add file.source stored) := by
  refine ⟨by rw [through.split]; simp,fun other member => ?_,through.ahead,?_⟩
  · rcases List.mem_append.mp member with early | last
    · exact through.settled other early
    · rw [List.mem_singleton.mp last]
      exact settled
  · rw [tallied,List.foldl_append,← tallied,← through.told,counted]
    rfl

theorem uploaded_renewed (embeds : Embeds cfg batch) (absent : store.Absent batch.file.source) :
    Renewed cfg batch.file (store.uploading batch.chunks) := by
  obtain ⟨text,read,texts⟩ := embeds.texts
  refine ⟨text,batch.vectors,read,by rw [embeds.vectors,texts],fun i => ?_⟩
  rw [Batch.chunks,uploaded,if_pos rfl,absent,Option.or_none,texts]

theorem uploaded_elsewhere (source : String) (other : source ≠ batch.file.source) :
    SameAt store (store.uploading batch.chunks) source := fun i => by rw [Batch.chunks,uploaded,if_neg other,Option.none_or]

theorem deleted_absent (source : String) : (store.delete_by_source source).2.Absent source := by
  obtain ⟨n,after,ran,left⟩ := @deleted uuid5 α store source
  intro i
  rw [ran,left,if_pos rfl]

theorem deleted_elsewhere {source : String} (s : String) (other : s ≠ source) : SameAt store (store.delete_by_source source).2 s := by
  obtain ⟨n,after,ran,left⟩ := @deleted uuid5 α store source
  intro i
  rw [ran,left,if_neg other]

/-- A step of a thread keeps what it knows, and leaves the sources of the others alone. -/
theorem step_knows (distinct : (files.map Entry.source).Nodup) {answer : Answer α} {phase phase' : Phase α}
    (stepped : step cfg answer store phase = some (store',phase')) (knows : Knows cfg before files store phase) :
    Knows cfg before files store' phase' ∧ ∀ source, source ∉ files.map Entry.source → SameAt store store' source := by
  have outside : ∀ {batch : Batch α} {past rest : List Entry} {tally : Tally} {source : String},
      Through cfg before files store past [batch.file] rest tally → source ∉ files.map Entry.source → source ≠ batch.file.source := by
    intro batch past rest tally source through absent same
    refine absent (same ▸ List.mem_map_of_mem ?_)
    rw [through.split]
    simp
  cases phase with
  | next rest tally =>
    obtain ⟨past,through⟩ := knows
    cases rest with
    | nil =>
      cases stepped
      have split : files = past := by simpa using through.split
      exact ⟨by rw [← split] at through; exact through,fun _ _ _ => rfl⟩
    | cons file rest =>
      have kept := through.ahead file (List.mem_cons_self ..)
      have current : Through cfg before files store past [file] rest tally :=
        ⟨through.split,through.settled,fun other member => through.ahead other (List.mem_cons_of_mem _ member),through.told⟩
      have stays : Knows cfg before files store (.stopped : Phase α) := ⟨past,file,rest,tally,current,.inl kept⟩
      rcases read : file.read_text with error | text
      · simp only [step,read] at stepped
        cases stepped
        exact ⟨stays,fun _ _ _ => rfl⟩
      · cases answer with
        | server reply => simp [step,read] at stepped
        | embeds outcome =>
          simp only [step,read] at stepped
          split at stepped
          · next empty =>
            cases stepped
            exact ⟨⟨past ++ [file],current.pass ⟨text,read,by rw [if_pos empty]; exact kept⟩
              (by simp [chunkCount,read,empty])⟩,fun _ _ _ => rfl⟩
          · next some =>
            rcases outcome with error | vectors
            · cases stepped
              exact ⟨stays,fun _ _ _ => rfl⟩
            · simp only at stepped
              split at stepped
              · cases stepped
                exact ⟨stays,fun _ _ _ => rfl⟩
              · next length =>
                cases stepped
                exact ⟨⟨⟨⟨text,read,rfl⟩,some,not_not.mp length⟩,kept,past,current⟩,fun _ _ _ => rfl⟩
  | clearing batch rest tally =>
    obtain ⟨embeds,kept,past,through⟩ := knows
    cases answer with
    | embeds outcome => cases stepped
    | server reply =>
      rcases sent_cases stepped with ⟨rfl,rfl⟩ | ⟨rfl | rfl,rfl⟩
      · refine ⟨?_,fun _ _ _ => rfl⟩
        split
        · exact ⟨embeds,kept,past,through⟩
        · next missing => exact ⟨embeds,missing_absent (Bool.eq_false_iff.mpr missing),past,through⟩
      · exact ⟨⟨past,_,rest,tally,through,.inl kept⟩,fun _ _ _ => rfl⟩
      · exact ⟨⟨past,_,rest,tally,through,.inl kept⟩,fun _ _ _ => rfl⟩
  | counting batch rest tally =>
    obtain ⟨embeds,kept,past,through⟩ := knows
    cases answer with
    | embeds outcome => cases stepped
    | server reply =>
      rcases sent_cases stepped with ⟨rfl,rfl⟩ | ⟨rfl | rfl,rfl⟩
      · refine ⟨?_,fun _ _ _ => rfl⟩
        split
        · next none => exact ⟨embeds,count_zero none,past,through⟩
        · exact ⟨embeds,kept,past,through⟩
      · exact ⟨⟨past,_,rest,tally,through,.inl kept⟩,fun _ _ _ => rfl⟩
      · exact ⟨⟨past,_,rest,tally,through,.inl kept⟩,fun _ _ _ => rfl⟩
  | deleting batch rest tally =>
    obtain ⟨embeds,kept,past,through⟩ := knows
    cases answer with
    | embeds outcome => cases stepped
    | server reply =>
      have elsewhere : ∀ source, source ∉ files.map Entry.source →
          SameAt store (store.delete_by_source batch.file.source).2 source := fun source absent =>
        deleted_elsewhere source (outside through absent)
      rcases sent_cases stepped with ⟨rfl,rfl⟩ | ⟨rfl | rfl,rfl⟩
      · exact ⟨⟨embeds,deleted_absent _,past,through.current distinct deleted_elsewhere⟩,elsewhere⟩
      · exact ⟨⟨past,_,rest,tally,through,.inl kept⟩,fun _ _ _ => rfl⟩
      · exact ⟨⟨past,_,rest,tally,through.current distinct deleted_elsewhere,.inr (.inl (deleted_absent _))⟩,elsewhere⟩
  | checking batch rest tally =>
    obtain ⟨embeds,absent,past,through⟩ := knows
    cases answer with
    | embeds outcome => cases stepped
    | server reply =>
      have same : ∀ source, SameAt store (ensured store) source := fun source i => stored_ensured store source i
      rcases why : refusal batch.chunks with _ | error
      · simp only [step,why] at stepped
        rcases sent_cases stepped with ⟨rfl,rfl⟩ | ⟨rfl | rfl,rfl⟩
        · exact ⟨⟨embeds,(same _).absent absent,past,through.same fun _ _ => same _⟩,fun source _ => same source⟩
        · exact ⟨⟨past,_,rest,tally,through,.inr (.inl absent)⟩,fun _ _ _ => rfl⟩
        · exact ⟨⟨past,_,rest,tally,through.same fun _ _ => same _,.inr (.inl ((same _).absent absent))⟩,
            fun source _ => same source⟩
      · simp only [step,why] at stepped
        cases stepped
        exact ⟨⟨past,_,rest,tally,through,.inr (.inl absent)⟩,fun _ _ _ => rfl⟩
  | sending batch rest tally =>
    obtain ⟨embeds,absent,past,through⟩ := knows
    cases answer with
    | embeds outcome => cases stepped
    | server reply =>
      have elsewhere : ∀ source, source ∉ files.map Entry.source → SameAt store (store.uploading batch.chunks) source :=
        fun source absent => uploaded_elsewhere source (outside through absent)
      have moved : Through cfg before files (store.uploading batch.chunks) past [batch.file] rest tally :=
        through.current distinct uploaded_elsewhere
      have renewed := uploaded_renewed embeds absent
      obtain ⟨text,read,texts⟩ := embeds.texts
      have some : chunk_text text cfg.chunk_size cfg.chunk_overlap ≠ [] := texts ▸ embeds.some
      rcases sent_cases stepped with ⟨rfl,rfl⟩ | ⟨rfl | rfl,rfl⟩
      · exact ⟨⟨past ++ [batch.file],moved.pass ⟨text,read,by rw [if_neg some]; exact renewed⟩
          (by simp [chunkCount,read,some,texts])⟩,
          elsewhere⟩
      · exact ⟨⟨past,_,rest,tally,through,.inr (.inl absent)⟩,fun _ _ _ => rfl⟩
      · exact ⟨⟨past,_,rest,tally,moved,.inr (.inr renewed)⟩,elsewhere⟩
  | done tally => cases stepped
  | stopped => cases stepped

/-! ### Every order of steps -/

variable {ι : Type} [DecidableEq ι]

/-- All threads are about to ingest what is below their roots. -/
def start (before : QdrantVectorStore uuid5 α) (roots : ι → Tree) : Config ι (QdrantVectorStore uuid5 α) (Phase α) :=
  ⟨before,fun i => .next (collect_files (roots i)) {}⟩

/-- No two threads have a file in common. -/
def Apart (roots : ι → Tree) : Prop :=
  ∀ i j, i ≠ j → ∀ file ∈ collect_files (roots i), file.source ∉ (collect_files (roots j)).map Entry.source

variable {E : Type} {embedder : EmbedderPort E α} {w w' : Index (QdrantVectorStore uuid5 α) E}

/-- Every source is as it was, or one of a file that a thread has at hand or has ingested; a thread that is done has
    ingested and counted all its files, and tells what their ingest tells whenever it goes well alone. -/
structure Replaced (cfg : RagConfig) (before : QdrantVectorStore uuid5 α) (roots : ι → Tree)
    (c : Config ι (QdrantVectorStore uuid5 α) (Phase α)) : Prop where
  whole : ∀ source, Kept before c.shared source ∨ ∃ i, ∃ file ∈ collect_files (roots i), file.source = source ∧
    (c.shared.Absent source ∧ (∀ tally, c.thread i ≠ .done tally) ∨ Renewed cfg file c.shared)
  done : ∀ i tally, c.thread i = .done tally → (∀ file ∈ collect_files (roots i), Settled cfg before c.shared file) ∧
    tally = tallied cfg (collect_files (roots i))
  alone : ∀ i tally, c.thread i = .done tally → ∀ {E : Type} (embedder : EmbedderPort E α) (w w' : Index _ E) (tally' : Tally),
    (qdrantService uuid5 embedder cfg).ingestFiles (collect_files (roots i)) {} w = (.ok tally',w') → tally' = tally

end

/-! ### Two ingests -/

end HexAgent.ParallelIngests
