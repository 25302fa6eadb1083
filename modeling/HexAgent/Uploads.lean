import HexAgent.Rag
import Mathlib.Logic.Embedding.Basic

/-!
Ingesting into a Qdrant collection, whose adapter checks a batch before it sends
it. The service deletes the chunks of a source before it uploads the new ones, so
a batch that the adapter refuses leaves its source without chunks; an ingest that
stops anywhere else leaves every source as it was or completely replaced.
-/
namespace HexAgent.Uploads
open HexAgent.Values HexAgent.Events HexAgent.Rag Dicts

/-! ### The adapter -/

section
-- the identifier of a name; different names get different identifiers
variable (uuid5 : String ↪ String)

def _point_id (source : String) (chunk_index : Nat) : String := uuid5 (source ++ "::" ++ toString chunk_index)

theorem point_id_injective {source source' : String} {i j : Nat}
    (same : _point_id uuid5 source i = _point_id uuid5 source' j) : source = source' ∧ i = j := by
  have names := congrArg String.toList (uuid5.injective same)
  have colons : "::".toList = [':',':'] := by decide
  have digits : ∀ n : Nat, (toString n).toList = Nat.toDigits 10 n := fun n => by simp
  have plain : ∀ n : Nat, ':' ∉ Nat.toDigits 10 n := fun n colon =>
    absurd (Nat.isDigit_of_mem_toDigits (by decide) (by decide) colon) (by decide)
  simp only [String.toList_append,colons,digits,List.append_assoc,List.cons_append,List.nil_append] at names
  have split : (source.toList ++ [':']) ++ ':' :: Nat.toDigits 10 i =
      (source'.toList ++ [':']) ++ ':' :: Nat.toDigits 10 j := by simpa using names
  have tails : Nat.toDigits 10 i = Nat.toDigits 10 j := after_separator (plain i) (plain j) split
  rw [tails] at names
  refine ⟨String.toList_inj.mp (List.append_cancel_right names),?_⟩
  rw [← Nat.ofDigitChars_ten_toDigits (n := i),tails,Nat.ofDigitChars_ten_toDigits]

/-- A point of the collection: a vector and its payload. -/
structure Point (α : Type) where
  vector : List α
  source : String
  chunk_index : Nat
  text : String

/-- The adapter and the collection on the server, if it exists. Every point was uploaded
    by an adapter, so it has the identifier of its chunk. -/
structure QdrantVectorStore (α : Type) where
  collection : String := "agent_kb"
  _collection_ready : Bool := false
  points : Option (Dict String (Point α)) := none
  ready : _collection_ready = true → points.isSome
  identified : ∀ there, points = some there → ∀ id p, there.get id = some p → id = _point_id uuid5 p.source p.chunk_index

namespace QdrantVectorStore
variable {uuid5} {α : Type} (store : QdrantVectorStore uuid5 α)

def health : Fields :=
  [("ok",.bool true),("collection",.str store.collection),("count",.int (store.points.getD ∅).size)]

/-- The point of a chunk. -/
def stored (source : String) (chunk_index : Nat) : Option (Point α) :=
  (store.points.getD ∅).get (_point_id uuid5 source chunk_index)

/-- Nothing is stored under the source. -/
def Absent (source : String) : Prop := ∀ i, store.stored source i = none

/-- The points of other sources. -/
def others (source : String) (there : Dict String (Point α)) : Dict String (Point α) :=
  there.filter fun p => p.source ≠ source

def delete_by_source (source : String) : Except PyError Nat × QdrantVectorStore uuid5 α :=
  match found : store.points with
  | none => (.ok 0,store)
  | some there =>
    (.ok (there.size - (others source there).size),
      { store with
        points := some (others source there)
        ready := fun _ => rfl
        identified := by
          rintro _ ⟨⟩ id p got
          rw [others,Dict.get_filter] at got
          exact store.identified there found id p (Option.filter_eq_some_iff.mp got).1 })

end QdrantVectorStore

variable {α : Type}

/-- The dimensions of the vectors of a batch. -/
def dims (chunks : List (Chunk α)) : List Nat := (chunks.map fun c => (c.vector.getD []).length).dedup

/-- Why a batch is refused. -/
def refusal (chunks : List (Chunk α)) : Option PyError :=
  if chunks.any (fun c => c.vector.isNone) then
    some (.ValueError "upsert requires embedded chunks; a chunk vector is None.")
  else if 0 ∈ dims chunks then some (.ValueError "upsert requires non-empty embedding vectors.")
  else if (dims chunks).length ≠ 1 then
    some (.ValueError ("upsert requires a consistent embedding dimension; got " ++
      (PyVal.list (((dims chunks).mergeSort (· ≤ ·)).map fun n => .int n)).repr ++ "."))
  else none

/-- The point that is uploaded for a chunk. -/
def pointOf (c : Chunk α) : Point α := ⟨c.vector.getD [],c.source,c.chunk_index,c.text⟩

namespace QdrantVectorStore
variable {uuid5} (store : QdrantVectorStore uuid5 α)

/-- The collection with the points of the chunks, created when it was not there. -/
def uploading (chunks : List (Chunk α)) : QdrantVectorStore uuid5 α where
  collection := store.collection
  _collection_ready := true
  points := some ((store.points.getD ∅).update (chunks.map fun c => (_point_id uuid5 c.source c.chunk_index,pointOf c)))
  ready _ := rfl
  identified := by
    rintro _ ⟨⟩ id p got
    rcases Dict.of_get_update got with member | there
    · obtain ⟨c,-,same⟩ := List.mem_map.mp member
      cases same
      rfl
    · rcases found : store.points with _ | points
      · rw [found] at there
        cases there
      · rw [found] at there
        exact store.identified points found id p there

/-- The batch is checked before anything is sent. -/
def upsert (chunks : List (Chunk α)) : Except PyError Nat × QdrantVectorStore uuid5 α :=
  if chunks.isEmpty then (.ok 0,store)
  else
    match refusal chunks with
    | some error => (.error error,store)
    | none => (.ok chunks.length,store.uploading chunks)

/-- The adapter as a port. -/
def port (uuid5 : String ↪ String) (α : Type) : VectorStorePort (QdrantVectorStore uuid5 α) α where
  health := health
  delete_by_source source store := store.delete_by_source source
  upsert chunks store := store.upsert chunks

end QdrantVectorStore
open QdrantVectorStore

/-! ### What the two calls do -/

variable {uuid5} {store : QdrantVectorStore uuid5 α}

theorem stored_source {source : String} {i : Nat} {p : Point α} (found : store.stored source i = some p) : p.source = source := by
  unfold stored at found
  rcases there : store.points with _ | points
  · rw [there] at found
    cases found
  · rw [there] at found
    exact (point_id_injective uuid5 (store.identified points there _ p found)).1.symm

theorem deleted (source : String) : ∃ n s', store.delete_by_source source = (.ok n,s') ∧
    ∀ s i, s'.stored s i = if s = source then none else store.stored s i := by
  unfold delete_by_source
  split
  · next found =>
    refine ⟨0,store,rfl,fun s i => ?_⟩
    have nothing : store.stored s i = none := by simp [stored,found]
    simp [nothing]
  · next there found =>
    refine ⟨_,_,rfl,fun s i => ?_⟩
    have before : store.stored s i = there.get (_point_id uuid5 s i) := by simp [stored,found]
    have after : (others source there).get (_point_id uuid5 s i) =
        (store.stored s i).filter fun p => p.source ≠ source := by rw [before,others,Dict.get_filter]
    show (others source there).get (_point_id uuid5 s i) = _
    rw [after]
    rcases got : store.stored s i with _ | p
    · simp
    · have owner := stored_source got
      by_cases here : s = source
      · simp [Option.filter,owner,here]
      · simp [Option.filter,owner,here]

/-- The value under a numbered key. -/
theorem get_numbered {β γ : Type} {key : Nat → String} (injective : Function.Injective key) (f : β × Nat → γ)
    (items : List β) (k i : Nat) :
    Dicts.get (key i) ((items.zipIdx k).map fun x => (key x.2,f x)) =
      if k ≤ i then items[i - k]?.map fun b => f (b,i) else none := by
  induction items generalizing k with
  | nil => simp [Dicts.get]
  | cons b rest ih =>
    by_cases here : k = i
    · subst here
      simp [Dicts.get]
    · have other : key k ≠ key i := fun same => here (injective same)
      simp only [List.zipIdx_cons,List.map_cons,Dicts.get,other,↓reduceIte]
      rw [ih]
      by_cases after : k + 1 ≤ i
      · have shift : i - k = (i - (k + 1)) + 1 := by omega
        rw [if_pos after,if_pos (by omega),shift,List.getElem?_cons_succ]
      · rw [if_neg after,if_neg (by omega)]

variable {source : String} {texts : List String} {vectors : List (List α)}

/-- The uploaded points are those of the chunks, under their indices. -/
theorem uploaded (s : String) (i : Nat) : (store.uploading (chunksOf source texts vectors)).stored s i =
    (if s = source then (chunksOf source texts vectors)[i]?.map pointOf else none).or (store.stored s i) := by
  have pairs : (chunksOf source texts vectors).map (fun c => (_point_id uuid5 c.source c.chunk_index,pointOf c)) =
      (texts.zip vectors).zipIdx.map fun x => (_point_id uuid5 source x.2,(⟨x.1.2,source,x.2,x.1.1⟩ : Point α)) := by
    simp [chunksOf,pointOf,Function.comp_def]
  have injective : Function.Injective (_point_id uuid5 source) := fun i j same => (point_id_injective uuid5 same).2
  have distinct : ((chunksOf source texts vectors).map fun c =>
      (_point_id uuid5 c.source c.chunk_index,pointOf c)).map Prod.fst |>.Nodup := by
    rw [pairs,List.map_map]
    have indices : ((texts.zip vectors).zipIdx.map fun x => _point_id uuid5 source x.2) =
        ((texts.zip vectors).zipIdx.map Prod.snd).map (_point_id uuid5 source) := by
      rw [List.map_map]
      rfl
    rw [show (Prod.fst ∘ fun x : (String × List α) × Nat => (_point_id uuid5 source x.2,(⟨x.1.2,source,x.2,x.1.1⟩ : Point α))) =
      fun x => _point_id uuid5 source x.2 from rfl,indices]
    exact List.Nodup.map injective (by simpa using List.nodup_range' ..)
  simp only [stored,uploading,Option.getD_some]
  rw [Dict.get_update distinct]
  congr 1
  by_cases here : s = source
  · subst here
    rw [if_pos rfl,pairs,get_numbered injective]
    simp [chunksOf,pointOf,Function.comp_def]
  · rw [if_neg here,Dicts.get_eq_none_iff,pairs]
    simp only [List.map_map,List.mem_map,not_exists,not_and]
    intro x _ same
    exact here (point_id_injective uuid5 same).1.symm

/-! ### Good batches and bad ones -/

/-- The vectors are not empty and of one length. -/
def Upright (vectors : List (List α)) : Prop := (∀ v ∈ vectors, v ≠ []) ∧ ∀ v ∈ vectors, ∀ v' ∈ vectors, v.length = v'.length

variable {E : Type} {embedder : EmbedderPort E α} {cfg : RagConfig}

/-- The service over the collection. -/
def qdrantService (uuid5 : String ↪ String) (embedder : EmbedderPort E α) (cfg : RagConfig) :
    RagService (QdrantVectorStore uuid5 α) E α := ⟨port uuid5 α,embedder,cfg⟩

/-- The file is stored or passed over; the embedder is left in the second state. -/
inductive Passes (embedder : EmbedderPort E α) (cfg : RagConfig) (e : E) (file : Entry) : E → Prop where
  | blank {text : String} (read : file.read_text = .ok text)
    (empty : chunk_text text cfg.chunk_size cfg.chunk_overlap = []) : Passes embedder cfg e file e
  | embedded {text : String} {vectors : List (List α)} {e' : E} (read : file.read_text = .ok text)
    (some : chunk_text text cfg.chunk_size cfg.chunk_overlap ≠ [])
    (answer : embedder.embed (chunk_text text cfg.chunk_size cfg.chunk_overlap) e = (.ok vectors,e'))
    (same : vectors.length = (chunk_text text cfg.chunk_size cfg.chunk_overlap).length) (upright : Upright vectors) :
    Passes embedder cfg e file e'

/-- The source has the complete new chunks of the file. -/
def Renewed (cfg : RagConfig) (file : Entry) (after : QdrantVectorStore uuid5 α) : Prop :=
  ∃ text vectors, file.read_text = .ok text ∧
    vectors.length = (chunk_text text cfg.chunk_size cfg.chunk_overlap).length ∧
    ∀ i, after.stored file.source i =
      (chunksOf file.source (chunk_text text cfg.chunk_size cfg.chunk_overlap) vectors)[i]?.map pointOf

/-- The source has what it had, or the new chunks of its file. -/
def WholeAt (cfg : RagConfig) (files : List Entry) (before after : QdrantVectorStore uuid5 α) (source : String) : Prop :=
  (∀ i, after.stored source i = before.stored source i) ∨ ∃ file ∈ files, file.source = source ∧ Renewed cfg file after

/-- No source is left empty or partly written. -/
def Whole (cfg : RagConfig) (files : List Entry) (before after : QdrantVectorStore uuid5 α) : Prop :=
  ∀ source, WholeAt cfg files before after source

variable {w w' : Index (QdrantVectorStore uuid5 α) E} {file : Entry} {files : List Entry} {tally : Tally} {error : PyError}

end

/-! ### A batch that is refused -/

/-- An embedder that returns an empty vector for every text. -/
def hollow : EmbedderPort Unit Nat where
  embed texts state := (.ok (texts.map fun _ => []),state)

end HexAgent.Uploads
