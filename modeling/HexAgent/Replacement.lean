import HexAgent.Rag

/-!
Ingesting into the offline store. Every collected file with a text ends up with
the chunks of that text and every other source keeps its chunks; a file whose text
has become blank is passed over, so it keeps the chunks of the text it had.
-/
namespace HexAgent.Replacement
open HexAgent.Values HexAgent.Events HexAgent.Rag

/-! ### The offline store -/

structure InMemoryVectorStore (α : Type) where
  collection : String := "agent_kb"
  _healthy : Bool := true
  _chunks : List (Chunk α) := []

namespace InMemoryVectorStore
variable {α : Type} (store : InMemoryVectorStore α)

def health : Fields :=
  [("ok",.bool store._healthy),("collection",.str store.collection),("count",.int store._chunks.length)]

/-- The chunks of a source. -/
def of (source : String) : List (Chunk α) := store._chunks.filter fun c => c.source = source

/-- The texts of a source with their indices. -/
def listing (source : String) : List (String × Nat) := (store.of source).map fun c => (c.text,c.chunk_index)

def delete_by_source (source : String) : Except PyError Nat × InMemoryVectorStore α :=
  let kept := store._chunks.filter fun c => c.source ≠ source
  (.ok (store._chunks.length - kept.length),{ store with _chunks := kept })

def upsert (chunks : List (Chunk α)) : Except PyError Nat × InMemoryVectorStore α :=
  (.ok chunks.length,{ store with _chunks := store._chunks ++ chunks })

/-- The store as a port. -/
def port (α : Type) : VectorStorePort (InMemoryVectorStore α) α where
  health := health
  delete_by_source source store := store.delete_by_source source
  upsert chunks store := store.upsert chunks

end InMemoryVectorStore
open InMemoryVectorStore

section
variable {E α : Type}

/-- The service over the offline store. -/
def memoryService (embedder : EmbedderPort E α) (cfg : RagConfig) : RagService (InMemoryVectorStore α) E α :=
  ⟨port α,embedder,cfg⟩

/-- The embedder returns one vector for each text. -/
def OneEach (embedder : EmbedderPort E α) : Prop :=
  ∀ texts state, ∃ vectors state', embedder.embed texts state = (.ok vectors,state') ∧ vectors.length = texts.length

variable {embedder : EmbedderPort E α} {cfg : RagConfig} {w w' : Index (InMemoryVectorStore α) E}

theorem of_chunksOf {source : String} {texts : List String} {vectors : List (List α)} (s : String) :
    (chunksOf source texts vectors).filter (fun c => c.source = s) = if s = source then chunksOf source texts vectors else [] := by
  have all : ∀ c ∈ chunksOf source texts vectors, c.source = source := by
    intro c member
    obtain ⟨item,-,same⟩ := List.mem_map.mp member
    rw [← same]
  split
  · next same =>
    rw [List.filter_eq_self]
    intro c member
    simp [all c member,same]
  · next other =>
    rw [List.filter_eq_nil_iff]
    intro c member
    simp [all c member,Ne.symm other]

/-- Replacing the chunks of a source leaves the other sources as they are. -/
theorem replace_memory (source : String) (texts : List String) (vectors : List (List α)) (store : InMemoryVectorStore α) :
    ∃ store', (memoryService embedder cfg).replace source (chunksOf source texts vectors) store = (.ok (),store') ∧
      store'._healthy = store._healthy ∧
      ∀ s, store'.of s = if s = source then chunksOf source texts vectors else store.of s := by
  refine ⟨_,rfl,rfl,fun s => ?_⟩
  simp only [of,List.filter_append,of_chunksOf,List.filter_filter]
  by_cases same : s = source
  · subst same
    simp
  · simp only [if_neg same,List.append_nil]
    refine List.filter_congr fun c _ => ?_
    by_cases here : c.source = s
    · simp [here,same]
    · simp [here]

/-! ### One file, and all of them -/

/-- Ingesting a readable file never raises: its chunks replace those of its source, unless it is blank. -/
theorem ingestFile_memory (one : OneEach embedder) (file : Entry) {text : String} (read : file.read_text = .ok text)
    (w : Index (InMemoryVectorStore α) E) :
    ∃ stored w', (memoryService embedder cfg).ingestFile file w = (.ok stored,w') ∧ w'.store._healthy = w.store._healthy ∧
      ((memoryService embedder cfg).chunks text ≠ [] →
        w'.store.listing file.source = ((memoryService embedder cfg).chunks text).zipIdx) ∧
      ∀ s, (s ≠ file.source ∨ (memoryService embedder cfg).chunks text = []) → w'.store.of s = w.store.of s := by
  have filed := ingestFile_filed (memoryService embedder cfg) file w
  rcases ran : (memoryService embedder cfg).ingestFile file w with ⟨outcome,w'⟩
  rw [ran] at filed
  obtain ⟨given,state,embedding,count⟩ := one ((memoryService embedder cfg).chunks text) w.embedder
  cases filed with
  | unreadable read' => rw [read] at read'; cases read'
  | blank read' empty =>
    rw [read] at read'
    cases read'
    exact ⟨none,_,rfl,rfl,fun some => absurd empty some,fun _ _ => rfl⟩
  | unembedded read' some raised =>
    rw [read] at read'
    cases read'
    rw [show (memoryService embedder cfg)._embedder = embedder from rfl,embedding] at raised
    cases raised
  | miscounted read' some embedded other =>
    rw [read] at read'
    cases read'
    rw [show (memoryService embedder cfg)._embedder = embedder from rfl,embedding] at embedded
    cases embedded
    exact absurd count other
  | @refused text' vectors _ _ _ read' some embedded same raised =>
    obtain ⟨store',replaced,-⟩ := @replace_memory E α embedder cfg file.source ((memoryService embedder cfg).chunks text')
      vectors w.store
    rw [replaced] at raised
    cases raised
  | @stored text' vectors e _ read' some embedded same replaced =>
    rw [read] at read'
    cases read'
    obtain ⟨store',ended,healthy,of⟩ := @replace_memory E α embedder cfg file.source
      ((memoryService embedder cfg).chunks text) vectors w.store
    rw [replaced] at ended
    cases ended
    refine ⟨_,_,rfl,healthy,fun _ => ?_,fun s other => ?_⟩
    · rw [listing,of,if_pos rfl]
      exact chunksOf_listing same
    · rw [of,if_neg (other.resolve_right some)]

/-- After an ingest of readable files each of them has the chunks of its text, or, when it
    is blank, what it had; other sources keep theirs. -/
theorem ingestFiles_memory (one : OneEach embedder) {files : List Entry}
    (readable : ∀ file ∈ files, ∃ text, file.read_text = .ok text) (distinct : (files.map Entry.source).Nodup)
    (tally : Tally) (w : Index (InMemoryVectorStore α) E) :
    ∃ tally' w', (memoryService embedder cfg).ingestFiles files tally w = (.ok tally',w') ∧
      w'.store._healthy = w.store._healthy ∧
      (∀ file ∈ files, ∀ text, file.read_text = .ok text →
        ((memoryService embedder cfg).chunks text ≠ [] →
          w'.store.listing file.source = ((memoryService embedder cfg).chunks text).zipIdx) ∧
        ((memoryService embedder cfg).chunks text = [] → w'.store.of file.source = w.store.of file.source)) ∧
      ∀ s, s ∉ files.map Entry.source → w'.store.of s = w.store.of s := by
  induction files generalizing tally w with
  | nil => exact ⟨tally,w,rfl,rfl,nofun,fun _ _ => rfl⟩
  | cons file rest ih =>
    obtain ⟨text,read⟩ := readable file (List.mem_cons_self ..)
    obtain ⟨new,others⟩ := List.nodup_cons.mp distinct
    obtain ⟨stored,w₁,first,healthy,here,kept⟩ := @ingestFile_memory _ _ _ cfg one file _ read w
    obtain ⟨tally',w₂,after,healthy',there,kept'⟩ :=
      ih (fun file member => readable file (List.mem_cons_of_mem _ member)) others (tally.add file.source stored) w₁
    refine ⟨tally',w₂,?_,healthy'.trans healthy,?_,?_⟩
    · rw [RagService.ingestFiles,first]
      exact after
    · intro other member text' read'
      rcases List.mem_cons.mp member with rfl | later
      · rw [read] at read'
        cases read'
        have still : w₂.store.of other.source = w₁.store.of other.source := kept' _ new
        constructor
        · intro some
          rw [listing,still]
          exact here some
        · intro empty
          rw [still]
          exact kept _ (.inr empty)
      · have apart : other.source ≠ file.source := by
          intro same
          exact new (same ▸ List.mem_map_of_mem later)
        obtain ⟨filled,passed⟩ := there other later text' read'
        refine ⟨filled,fun empty => ?_⟩
        rw [passed empty]
        exact kept _ (.inl apart)
    · intro s outside
      simp only [List.map_cons,List.mem_cons,not_or] at outside
      rw [kept' s outside.2]
      exact kept s (.inl outside.1)

/-! ### The ingest -/

/-- Each collected file has the chunks of its present text, and every other source keeps its chunks. -/
structure Replaced (embedder : EmbedderPort E α) (cfg : RagConfig) (files : List Entry)
    (before after : InMemoryVectorStore α) : Prop where
  collected : ∀ file ∈ files, ∃ text, file.read_text = .ok text ∧
    after.listing file.source = ((memoryService embedder cfg).chunks text).zipIdx
  others : ∀ source, source ∉ files.map Entry.source → after.of source = before.of source

variable {resolve_in_workspace : String → Except PyError Tree} {raw_path : String}

theorem gate_open {store : InMemoryVectorStore α} (healthy : store._healthy = true) :
    (memoryService embedder cfg).require_healthy store = none := by
  simp [RagService.require_healthy,memoryService,port,health,healthy,Fields.get,Fields.getD,Dicts.get,PyVal.truthy]

/-- An ingest that answers that all went well found the store healthy and read every file. -/
theorem ingest_ok {reply : Fields} (returned : (memoryService embedder cfg).ingest resolve_in_workspace raw_path w = (.ok reply,w'))
    (ok : reply.get "ok" = .bool true) : w.store._healthy = true ∧ ∃ root tally, resolve_in_workspace raw_path = .ok root ∧
      (memoryService embedder cfg).ingestFiles (collect_files root) {} w = (.ok tally,w') := by
  unfold RagService.ingest at returned
  rcases healthy : w.store._healthy with _ | _
  · simp only [RagService.require_healthy,memoryService,port,health,healthy] at returned
    cases returned
    cases ok
  · rw [gate_open healthy] at returned
    refine ⟨rfl,?_⟩
    dsimp only at returned
    split at returned
    · cases returned
      cases ok
    · cases returned
    · next root resolved =>
      split at returned
      · cases returned
      · next tally w₁ ran =>
        cases returned
        exact ⟨root,tally,resolved,ran⟩

/-- Every file is readable in an ingest that ends without an exception. -/
theorem files_readable {files : List Entry} {tally tally' : Tally}
    (ran : (memoryService embedder cfg).ingestFiles files tally w = (.ok tally',w')) :
    ∀ file ∈ files, ∃ text, file.read_text = .ok text := by
  induction files generalizing tally w with
  | nil => exact nofun
  | cons file rest ih =>
    unfold RagService.ingestFiles at ran
    rcases first : (memoryService embedder cfg).ingestFile file w with ⟨error | stored,w₁⟩
    · rw [first] at ran
      cases ran
    · rw [first] at ran
      intro other member
      rcases List.mem_cons.mp member with rfl | later
      · rcases read : other.read_text with error | text
        · rw [RagService.ingestFile,read] at first
          cases first
        · exact ⟨text,rfl⟩
      · exact ih ran other later

theorem chunks_eq_nil {text : String} : (memoryService embedder cfg).chunks text = [] ↔ strip text = "" := chunk_text_eq_nil

/-- What an ingest that answers that all went well did, and that it can be done again. -/
theorem ingest_memory (one : OneEach embedder) {reply : Fields}
    (returned : (memoryService embedder cfg).ingest resolve_in_workspace raw_path w = (.ok reply,w'))
    (ok : reply.get "ok" = .bool true) :
    (∀ file ∈ collected resolve_in_workspace raw_path, ∃ text, file.read_text = .ok text ∧
      (strip text ≠ "" → w'.store.listing file.source = ((memoryService embedder cfg).chunks text).zipIdx) ∧
      (strip text = "" → w'.store.of file.source = w.store.of file.source)) ∧
    (∀ s, s ∉ (collected resolve_in_workspace raw_path).map Entry.source → w'.store.of s = w.store.of s) ∧
    ∃ reply' w₂, (memoryService embedder cfg).ingest resolve_in_workspace raw_path w' = (.ok reply',w₂) ∧
      reply'.get "ok" = .bool true := by
  obtain ⟨healthy,root,tally,resolved,ran⟩ := ingest_ok returned ok
  have readable := files_readable ran
  have distinct := collected_distinct root
  obtain ⟨tally₁,w₁,ran₁,healthy₁,filled,kept⟩ := @ingestFiles_memory _ _ _ cfg one _ readable distinct {} w
  rw [ran] at ran₁
  cases ran₁
  have files : collected resolve_in_workspace raw_path = collect_files root := by rw [collected,resolved]
  rw [files]
  refine ⟨fun file member => ?_,kept,?_⟩
  · obtain ⟨text,read⟩ := readable file member
    obtain ⟨some,empty⟩ := filled file member text read
    exact ⟨text,read,fun visible => some fun blank => visible (chunks_eq_nil.mp blank),
      fun blank => empty (chunks_eq_nil.mpr blank)⟩
  · obtain ⟨tally₂,w₂,ran₂,-,-,-⟩ := @ingestFiles_memory _ _ _ cfg one _ readable distinct {} w'
    refine ⟨tally₂.reply,w₂,?_,rfl⟩
    rw [RagService.ingest,gate_open (healthy₁.trans healthy)]
    dsimp only
    rw [resolved]
    dsimp only
    rw [ran₂]

/-- After an ingest every collected file has the chunks of its present text, whatever was
    stored before, and a second ingest changes nothing, exactly when no collected file
    that is blank now had chunks. -/
theorem replaced_iff (one : OneEach embedder) {reply : Fields}
    (returned : (memoryService embedder cfg).ingest resolve_in_workspace raw_path w = (.ok reply,w'))
    (ok : reply.get "ok" = .bool true) :
    (Replaced embedder cfg (collected resolve_in_workspace raw_path) w.store w'.store ∧
      ∀ source, ((memoryService embedder cfg).ingest resolve_in_workspace raw_path w').2.store.listing source =
        w'.store.listing source) ↔
    ∀ file ∈ collected resolve_in_workspace raw_path, ∀ text, file.read_text = .ok text → strip text = "" →
      w.store.listing file.source = [] := by
  obtain ⟨filled,kept,reply₂,w₂,again,ok₂⟩ := ingest_memory one returned ok
  constructor
  · rintro ⟨replaced,-⟩ file member text read blank
    obtain ⟨text₁,read₁,listed⟩ := replaced.collected file member
    obtain ⟨text₂,read₂,-,passed⟩ := filled file member
    rw [read] at read₁ read₂
    cases read₁
    cases read₂
    rw [chunks_eq_nil.mpr blank] at listed
    rw [listing,← passed blank]
    exact listed
  · intro cleared
    have replaced : Replaced embedder cfg (collected resolve_in_workspace raw_path) w.store w'.store := by
      refine ⟨fun file member => ?_,kept⟩
      obtain ⟨text,read,some,empty⟩ := filled file member
      refine ⟨text,read,?_⟩
      by_cases blank : strip text = ""
      · rw [listing,empty blank,chunks_eq_nil.mpr blank]
        exact cleared file member text read blank
      · exact some blank
    refine ⟨replaced,fun source => ?_⟩
    -- the second ingest passes over the same blank files and fills the others alike
    obtain ⟨filled₂,kept₂,-⟩ := ingest_memory one again ok₂
    rw [again]
    by_cases inside : source ∈ (collected resolve_in_workspace raw_path).map Entry.source
    · obtain ⟨file,member,same⟩ := List.mem_map.mp inside
      subst same
      obtain ⟨text,read,listed⟩ := replaced.collected file member
      obtain ⟨text₂,read₂,some,empty⟩ := filled₂ file member
      rw [read] at read₂
      cases read₂
      by_cases blank : strip text = ""
      · rw [listing,listing,empty blank]
      · rw [some blank,listed]
    · rw [listing,listing,kept₂ source inside]

end

/-! ### A file that is emptied -/

/-- An embedder that returns a number for every text. -/
def constant : EmbedderPort Unit Nat where
  embed texts state := (.ok (texts.map fun _ => [1]),state)

theorem constant_oneEach : OneEach constant := fun texts state => ⟨_,state,rfl,by simp⟩

/-- A workspace with one file. -/
def workspace (text : String) : String → Except PyError Tree := fun _ =>
  .ok ⟨⟨"/ws/a.md",".md",true,.ok text⟩,[],List.nodup_nil⟩

/-- The service over the offline store before anything is ingested. -/
def freshIndex : Index (InMemoryVectorStore Nat) Unit := ⟨{},()⟩

/-- The file is ingested with a text. -/
def firstIngest : Except PyError Fields × Index (InMemoryVectorStore Nat) Unit :=
  (memoryService constant {}).ingest (workspace "alpha") "." freshIndex

/-- The file is emptied and ingested again. -/
def secondIngest : Except PyError Fields × Index (InMemoryVectorStore Nat) Unit :=
  (memoryService constant {}).ingest (workspace "") "." firstIngest.2

theorem first_replaced :
    (Replaced constant {} (collected (workspace "alpha") ".") freshIndex.store firstIngest.2.store ∧
      ∀ source, ((memoryService constant {}).ingest (workspace "alpha") "." firstIngest.2).2.store.listing source =
        firstIngest.2.store.listing source) ↔
    ∀ file ∈ collected (workspace "alpha") ".", ∀ text, file.read_text = .ok text → strip text = "" →
      freshIndex.store.listing file.source = [] :=
  @replaced_iff _ _ constant {} freshIndex firstIngest.2 (workspace "alpha") "." constant_oneEach
    (Tally.reply ⟨1,["/ws/a.md"]⟩) rfl rfl

/-- The chunks of the old text stay. -/
theorem emptied_file_keeps_chunks :
    OneEach constant ∧ secondIngest.1 = .ok [("ok",.bool true),("files",.int 0),("chunks",.int 0),("sources",.list [])] ∧
      secondIngest.2.store.listing "/ws/a.md" = [("alpha",0)] ∧
      ¬ Replaced constant {} (collected (workspace "") ".") firstIngest.2.store secondIngest.2.store := by
  refine ⟨constant_oneEach,rfl,by decide,fun replaced => ?_⟩
  obtain ⟨text,read,listed⟩ := replaced.collected ⟨"/ws/a.md",".md",true,.ok ""⟩
    (by simp [collected,workspace,collect_files,INGEST_EXTS,show lower ".md" = ".md" by decide])
  cases read
  exact absurd listed (by decide)

end HexAgent.Replacement
