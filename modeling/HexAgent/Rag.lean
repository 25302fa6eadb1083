import HexAgent.Events
import Mathlib.Data.List.DropRight
import Mathlib.Data.String.Basic

/-!
Retrieval: the texts of the workspace are cut into overlapping windows, embedded,
and kept in a vector store under the path of their file. The service talks to any
store and any embedder; an ingest goes through the collected files in order and
stops at the first exception.
-/
namespace HexAgent.Rag
open HexAgent.Values HexAgent.Events

/-! ### Chunks of a text -/

/-- The windows of the text from here on, trimmed, the empty ones left out: each begins
    `step` characters after the one before, and the first that reaches the end is the last. -/
def windows (size step : Nat) : Nat → List Char → List String
  | 0,_ => []
  | fuel+1,rest =>
    if rest = [] then []
    else
      let chunk := stripChars (rest.take size)
      let chunks := if chunk = [] then [] else [String.ofList chunk]
      if rest.length ≤ size then chunks else chunks ++ windows size step fuel (rest.drop step)

/-- The windows of a text; every round of the loop drops at least one character. -/
def chunk_text (text : String) (size overlap : Int) : List String :=
  let text := stripChars text.toList
  if text = [] then []
  else if size ≤ 0 then [String.ofList text]
  else windows size.toNat (max 1 (size - max 0 overlap)).toNat text.length text

/-- The loop is never cut short: more fuel than characters makes no difference. -/
theorem windows_fuel {size step fuel fuel' : Nat} (moves : 0 < step) {rest : List Char} (enough : rest.length ≤ fuel)
    (enough' : rest.length ≤ fuel') : windows size step fuel rest = windows size step fuel' rest := by
  induction fuel generalizing fuel' rest with
  | zero =>
    rw [List.eq_nil_of_length_eq_zero (Nat.le_zero.mp enough)]
    cases fuel' <;> rfl
  | succ fuel ih =>
    cases rest with
    | nil => cases fuel' <;> rfl
    | cons c rest =>
      obtain ⟨fuel',rfl⟩ : ∃ more, fuel' = more + 1 := Nat.exists_eq_succ_of_ne_zero (by simp at enough'; omega)
      have less : ((c :: rest).drop step).length ≤ rest.length := by
        simp only [List.length_drop,List.length_cons]
        omega
      simp only [List.length_cons,Nat.add_le_add_iff_right] at enough enough'
      simp only [windows]
      rw [@ih fuel' _ (less.trans enough) (less.trans enough')]

theorem stripChars_eq_nil {text : List Char} : stripChars text = [] ↔ ∀ c ∈ text, isSpace c = true := by
  constructor
  · intro empty
    have outer : (text.dropWhile isSpace).rdropWhile isSpace = [] := empty
    rw [List.rdropWhile_eq_nil_iff] at outer
    rcases left : text.dropWhile isSpace with _ | ⟨c,rest⟩
    · exact List.dropWhile_eq_nil_iff.mp left
    · have visible := List.head?_dropWhile_not isSpace text
      rw [left] at outer visible
      simp [outer c (List.mem_cons_self ..)] at visible
  · intro blank
    simp [stripChars,List.dropWhile_eq_nil_iff.mpr blank]

/-- A trimmed text begins with a visible character. -/
theorem stripChars_head {text : List Char} {c : Char} {rest : List Char} (trimmed : stripChars text = c :: rest) :
    isSpace c = false := by
  have inside : (text.dropWhile isSpace).rdropWhile isSpace <+: text.dropWhile isSpace := List.rdropWhile_prefix ..
  have cut : (text.dropWhile isSpace).rdropWhile isSpace = c :: rest := trimmed
  rw [cut] at inside
  obtain ⟨more,split⟩ := inside
  have visible := List.head?_dropWhile_not isSpace text
  rw [← split] at visible
  simpa using visible

/-- Only a blank text has no chunks. -/
theorem chunk_text_eq_nil {text : String} {size overlap : Int} : chunk_text text size overlap = [] ↔ strip text = "" := by
  have same : strip text = "" ↔ stripChars text.toList = [] := by
    rw [strip,String.ofList_eq_empty_iff]
  rw [same]
  constructor
  · intro empty
    by_contra visible
    obtain ⟨c,rest,trimmed⟩ := List.exists_cons_of_ne_nil visible
    unfold chunk_text at empty
    simp only [trimmed] at empty
    split at empty
    · next nothing => cases nothing
    · split at empty
      · cases empty
      · next positive =>
        -- the first window begins with a visible character
        have first : stripChars ((c :: rest).take size.toNat) ≠ [] := by
          intro blank
          have inside : c ∈ (c :: rest).take size.toNat := by
            obtain ⟨n,more⟩ := Nat.exists_eq_succ_of_ne_zero (show size.toNat ≠ 0 by omega)
            rw [more]
            simp
          have space := stripChars_eq_nil.mp blank c inside
          rw [stripChars_head trimmed] at space
          cases space
        simp only [List.length_cons,windows,reduceCtorEq,if_neg first,↓reduceIte] at empty
        split at empty <;> simp at empty
  · intro blank
    simp [chunk_text,blank]

/-! ### Files -/

/-- A path below the workspace, and what reading it gives. -/
structure Entry where
  source : String
  suffix : String
  is_file : Bool
  read_text : Except PyError String

/-- A resolved path with what is below it; no two entries have the same path. -/
structure Tree where
  root : Entry
  below : List Entry
  distinct : (below.map Entry.source).Nodup

def INGEST_EXTS : List String := [".md",".txt",".py"]

def Entry.ingestable (entry : Entry) : Bool := entry.is_file && lower entry.suffix ∈ INGEST_EXTS

/-- The files to ingest; those below a directory in the order of their paths. -/
def collect_files (tree : Tree) : List Entry :=
  if tree.root.is_file then if lower tree.root.suffix ∈ INGEST_EXTS then [tree.root] else []
  else (tree.below.filter Entry.ingestable).mergeSort fun a b => a.source.splitOn "/" ≤ b.source.splitOn "/"

theorem collected_distinct (tree : Tree) : ((collect_files tree).map Entry.source).Nodup := by
  unfold collect_files
  split
  · split
    · exact List.nodup_singleton _
    · exact List.nodup_nil
  · refine ((List.mergeSort_perm _ _).map Entry.source).nodup_iff.mpr ?_
    exact tree.distinct.sublist (List.filter_sublist.map Entry.source)

/-! ### Ports -/

/-- A chunk of a source with its vector, whose entries are of any kind of number. -/
structure Chunk (α : Type) where
  source : String
  chunk_index : Nat
  text : String
  vector : Option (List α)

/-- The parts of the configuration that an ingest reads. -/
structure RagConfig where
  chunk_size : Int := 800
  chunk_overlap : Int := 100

/-- A store with states `S`. -/
structure VectorStorePort (S α : Type) where
  health : S → Fields
  delete_by_source : String → S → Except PyError Nat × S
  upsert : List (Chunk α) → S → Except PyError Nat × S

/-- An embedder with states `E`. -/
structure EmbedderPort (E α : Type) where
  embed : List String → E → Except PyError (List (List α)) × E

/-- The state of the store and of the embedder. -/
structure Index (S E : Type) where
  store : S
  embedder : E

/-! ### The service -/

structure RagService (S E α : Type) where
  _store : VectorStorePort S α
  _embedder : EmbedderPort E α
  _cfg : RagConfig := {}

/-- The chunks of a source from its texts and their vectors. -/
def chunksOf {α : Type} (source : String) (texts : List String) (vectors : List (List α)) : List (Chunk α) :=
  (texts.zip vectors).zipIdx.map fun ((text,vector),index) => ⟨source,index,text,some vector⟩

section
variable {S E α : Type} (service : RagService S E α)

/-- The answer when the store is not healthy. -/
def RagService.require_healthy (s : S) : Option Fields :=
  let h := service._store.health s
  if (h.get "ok").truthy then none
  else some [("ok",.bool false),("code",.str "dependency_unavailable"),
    ("error",.str ("RAG store unhealthy (collection=" ++ (h.get "collection").text ++ ")."))]

def RagService.chunks (text : String) : List String := chunk_text text service._cfg.chunk_size service._cfg.chunk_overlap

/-- Store the chunks of a source in place of those it had. -/
def RagService.replace (source : String) (chunks : List (Chunk α)) (s : S) : Except PyError Unit × S :=
  match service._store.delete_by_source source s with
  | (.error error,s) => (.error error,s)
  | (.ok _,s) =>
    match service._store.upsert chunks s with
    | (.error error,s) => (.error error,s)
    | (.ok _,s) => (.ok (),s)

/-- Ingest one file: how many chunks it has, or nothing for a file without text, which is passed over. -/
def RagService.ingestFile (file : Entry) (w : Index S E) : Except PyError (Option Nat) × Index S E :=
  match file.read_text with
  | .error error => (.error error,w)
  | .ok text =>
    let texts := service.chunks text
    if texts = [] then (.ok none,w)
    else
      match service._embedder.embed texts w.embedder with
      | (.error error,embedder) => (.error error,{ w with embedder })
      | (.ok vectors,embedder) =>
        if vectors.length ≠ texts.length then
          (.error (.ValueError ("embedder returned " ++ toString vectors.length ++ " embeddings for " ++
            toString texts.length ++ " chunks (count mismatch).")),{ w with embedder })
        else
          match service.replace file.source (chunksOf file.source texts vectors) w.store with
          | (.error error,store) => (.error error,{ store,embedder })
          | (.ok (),store) => (.ok (some texts.length),{ store,embedder })

/-- What an ingest has stored so far. -/
structure Tally where
  total_chunks : Nat := 0
  sources : List String := []

def Tally.add (tally : Tally) (source : String) : Option Nat → Tally
  | none => tally
  | some n => ⟨tally.total_chunks + n,tally.sources ++ [source]⟩

/-- The answer of an ingest that went well. -/
def Tally.reply (tally : Tally) : Fields :=
  [("ok",.bool true),("files",.int tally.sources.length),("chunks",.int tally.total_chunks),
    ("sources",.list (tally.sources.map .str))]

/-- Ingest the files in order. -/
def RagService.ingestFiles : List Entry → Tally → Index S E → Except PyError Tally × Index S E
  | [],tally,w => (.ok tally,w)
  | file :: rest,tally,w =>
    match service.ingestFile file w with
    | (.error error,w) => (.error error,w)
    | (.ok stored,w) => ingestFiles rest (tally.add file.source stored) w

/-- The files that the path stands for now. -/
def collected (resolve_in_workspace : String → Except PyError Tree) (raw_path : String) : List Entry :=
  match resolve_in_workspace raw_path with
  | .ok root => collect_files root
  | .error _ => []

/-- Ingest everything at the path, with the workspace as it is now. -/
def RagService.ingest (resolve_in_workspace : String → Except PyError Tree) (raw_path : String) (w : Index S E) :
    Except PyError Fields × Index S E :=
  match service.require_healthy w.store with
  | some gate => (.ok gate,w)
  | none =>
    match resolve_in_workspace raw_path with
    | .error (.Other "SandboxError" message) =>
      (.ok [("ok",.bool false),("code",.str "sandbox"),("error",.str message)],w)
    | .error error => (.error error,w)
    | .ok root =>
      match service.ingestFiles (collect_files root) {} w with
      | (.error error,w) => (.error error,w)
      | (.ok tally,w) => (.ok tally.reply,w)

/-! ### What one file can do -/

variable {service} {file : Entry} {w : Index S E}

/-- Nothing of the store is touched before the file is read and embedded. -/
inductive Filed (service : RagService S E α) (file : Entry) (w : Index S E) :
    Except PyError (Option Nat) → Index S E → Prop where
  | unreadable {error : PyError} (read : file.read_text = .error error) : Filed service file w (.error error) w
  | blank {text : String} (read : file.read_text = .ok text) (empty : service.chunks text = []) :
    Filed service file w (.ok none) w
  | unembedded {text : String} {error : PyError} {embedder : E} (read : file.read_text = .ok text)
    (some : service.chunks text ≠ [])
    (raised : service._embedder.embed (service.chunks text) w.embedder = (.error error,embedder)) :
    Filed service file w (.error error) ⟨w.store,embedder⟩
  | miscounted {text : String} {vectors : List (List α)} {embedder : E} {error : PyError} (read : file.read_text = .ok text)
    (some : service.chunks text ≠ [])
    (embedded : service._embedder.embed (service.chunks text) w.embedder = (.ok vectors,embedder))
    (other : vectors.length ≠ (service.chunks text).length) : Filed service file w (.error error) ⟨w.store,embedder⟩
  | refused {text : String} {vectors : List (List α)} {embedder : E} {error : PyError} {store : S}
    (read : file.read_text = .ok text) (some : service.chunks text ≠ [])
    (embedded : service._embedder.embed (service.chunks text) w.embedder = (.ok vectors,embedder))
    (same : vectors.length = (service.chunks text).length)
    (raised : service.replace file.source (chunksOf file.source (service.chunks text) vectors) w.store = (.error error,store)) :
    Filed service file w (.error error) ⟨store,embedder⟩
  | stored {text : String} {vectors : List (List α)} {embedder : E} {store : S} (read : file.read_text = .ok text)
    (some : service.chunks text ≠ [])
    (embedded : service._embedder.embed (service.chunks text) w.embedder = (.ok vectors,embedder))
    (same : vectors.length = (service.chunks text).length)
    (replaced : service.replace file.source (chunksOf file.source (service.chunks text) vectors) w.store = (.ok (),store)) :
    Filed service file w (.ok (Option.some (service.chunks text).length)) ⟨store,embedder⟩

theorem ingestFile_filed (service : RagService S E α) (file : Entry) (w : Index S E) :
    Filed service file w (service.ingestFile file w).1 (service.ingestFile file w).2 := by
  unfold RagService.ingestFile
  split
  · next error read => exact .unreadable read
  · next text read =>
    dsimp only
    split
    · next empty => exact .blank read empty
    · next some =>
      split
      · next error embedder raised => exact .unembedded read some raised
      · next vectors embedder embedded =>
        split
        · next other => exact .miscounted read some embedded other
        · next same =>
          split
          · next error store raised => exact .refused read some embedded (not_not.mp same) raised
          · next store replaced => exact .stored read some embedded (not_not.mp same) replaced

theorem chunksOf_listing {α : Type} {source : String} {texts : List String} {vectors : List (List α)}
    (same : vectors.length = texts.length) :
    (chunksOf source texts vectors).map (fun chunk => (chunk.text,chunk.chunk_index)) = texts.zipIdx := by
  apply List.ext_getElem
  · simp [chunksOf,same]
  · intro i inside inside'
    simp [chunksOf]

end
end HexAgent.Rag
