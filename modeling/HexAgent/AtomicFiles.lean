import HexAgent.Interleavings
import Mathlib.Data.List.Basic

/-!
A file that is only ever replaced as a whole. Every writer writes a file of its own, piece by piece,
and puts it in the place of the old one when it is complete; readers open what is in place and read
it piece by piece, while it may be replaced. However the pieces mix and wherever a writer stops, a
reader gets what was in place when it opened the file, whole (`Atomic`).
-/
namespace AtomicFiles
open Interleavings

/-- The files ever made, with their owners, and the one in place. Beside them every value that was put in place, with
    its file. -/
structure Disk (ι α β : Type*) where
  files : List (ι × List β) := []
  path : Option Nat := none
  history : List (α × Nat) := []

/-- Where a thread is: it wrote some of a file, or read some of one that it opened after so many replacements. -/
inductive Phase (α β : Type*) where
  | idle
  | writing (value : α) (file : Nat) (left : List β)
  | reading (file : Nat) (got : List β) (since : Nat)
  | loaded (bytes : Option (List β)) (since : Nat)
  | failed

/-- What a thread does next, and what comes of it: so many bytes go through, or the disk refuses. -/
inductive Reply (α : Type*) where
  | save (value : α)
  | load
  | moved (count : Nat)
  | refused
  | again

section
variable {ι α β : Type*}

/-- Bytes at the end of a file. -/
def Disk.extend (d : Disk ι α β) (file : Nat) (bytes : List β) : Disk ι α β :=
  { d with files := d.files.modify file fun entry => (entry.1,entry.2 ++ bytes) }

/-- The next step of a thread, if it can take one; a value without an encoding is not written. -/
def step (encode : α → Option (List β)) (i : ι) : Reply α → Disk ι α β → Phase α β → Option (Disk ι α β × Phase α β)
  | .save value,d,.idle =>
    match encode value with
    | none => some (d,.failed)
    | some bytes => some ({ d with files := d.files ++ [(i,[])] },.writing value d.files.length bytes)
  | .moved count,d,.writing value file left =>
    match left with
    | [] => some ({ d with path := some file, history := d.history ++ [(value,file)] },.idle)
    | _ => some (d.extend file (left.take count),.writing value file (left.drop count))
  | .refused,d,.writing .. => some (d,.failed)
  | .load,d,.idle =>
    match d.path with
    | none => some (d,.loaded none d.history.length)
    | some file => some (d,.reading file [] d.history.length)
  | .moved count,d,.reading file got since =>
    match d.files[file]? with
    | none => some (d,.failed)
    | some entry =>
      if entry.2.length ≤ got.length then some (d,.loaded (some got) since)
      else some (d,.reading file (got ++ (entry.2.drop got.length).take count) since)
  | .again,d,.loaded .. | .again,d,.failed => some (d,.idle)
  | _,_,_ => none

variable (encode : α → Option (List β))

def Moves (i : ι) (d : Disk ι α β) (p : Phase α β) (d' : Disk ι α β) (p' : Phase α β) : Prop :=
  ∃ reply, step encode i reply d p = some (d',p')

/-- No file yet, and nobody at work. -/
def start : Config ι (Disk ι α β) (Phase α β) := ⟨{},fun _ => .idle⟩

/-! ### What holds of the files -/

/-- Everything that was put in place is there, whole, and the last of it is in place. -/
structure Common (d : Disk ι α β) : Prop where
  whole : ∀ entry ∈ d.history, ∃ owner bytes, encode entry.1 = some bytes ∧ d.files[entry.2]? = some (owner,bytes)
  newest : d.path = d.history.getLast?.map Prod.snd

/-- What a reader got of the value that was the newest after so many replacements. -/
def Newest (d : Disk ι α β) (since : Nat) (value : Option (α × Nat)) : Prop :=
  since ≤ d.history.length ∧ (d.history.take since).getLast? = value

/-- What a thread knows of its own file, or of the one that it reads. -/
def Knows (i : ι) (d : Disk ι α β) : Phase α β → Prop
  | .idle | .failed => True
  | .writing value file left => (∀ entry ∈ d.history, entry.2 ≠ file) ∧
      ∃ bytes written, encode value = some bytes ∧ bytes = written ++ left ∧ d.files[file]? = some (i,written)
  | .reading file got since => ∃ value, Newest d since (some (value,file)) ∧ ∃ bytes, encode value = some bytes ∧ got <+: bytes
  | .loaded bytes since => ∃ value, Newest d since value ∧ bytes = value.bind fun entry => encode entry.1

/-! ### What a step changes -/

variable {encode} {i j : ι} {d d' : Disk ι α β} {p p' : Phase α β}

/-- What a step of a thread does to the files. -/
inductive Change (encode : α → Option (List β)) (i : ι) (d : Disk ι α β) : Disk ι α β → Prop where
  | same : Change encode i d d
  | made : Change encode i d { d with files := d.files ++ [(i,[])] }
  | wrote {file : Nat} {written : List β} (bytes : List β) (mine : d.files[file]? = some (i,written))
      (apart : ∀ entry ∈ d.history, entry.2 ≠ file) : Change encode i d (d.extend file bytes)
  | placed {value : α} {file : Nat} {bytes : List β} (encoded : encode value = some bytes)
      (mine : d.files[file]? = some (i,bytes)) :
      Change encode i d { d with path := some file, history := d.history ++ [(value,file)] }

theorem Disk.extend_self {file : Nat} {written : List β} (there : d.files[file]? = some (i,written)) (bytes : List β) :
    (d.extend file bytes).files[file]? = some (i,written ++ bytes) := by
  unfold Disk.extend
  rw [List.getElem?_modify_eq,there]
  rfl

/-- A file that is in place, or someone else's, stays as it is. -/
theorem Change.kept (change : Change encode i d d') {n : Nat} {owner : ι} {bytes : List β}
    (there : d.files[n]? = some (owner,bytes)) (frozen : owner ≠ i ∨ ∃ entry ∈ d.history, entry.2 = n) :
    d'.files[n]? = some (owner,bytes) := by
  cases change with
  | same => exact there
  | made => exact (List.getElem?_append_left (List.getElem?_eq_some_iff.mp there).1).trans there
  | @wrote file written more mine apart =>
    have other : file ≠ n := by
      rintro rfl
      rcases frozen with other | ⟨entry,member,same⟩
      · rw [there] at mine
        exact other (Prod.mk.inj (Option.some.inj mine)).1
      · exact apart entry member same
    unfold Disk.extend
    rw [List.getElem?_modify_ne _ _ other,there]
  | placed encoded mine => exact there

theorem Change.history (change : Change encode i d d') : d.history <+: d'.history := by
  cases change with
  | placed encoded mine => exact List.prefix_append ..
  | _ => exact List.prefix_refl _

theorem Common.change (common : Common encode d) (change : Change encode i d d') : Common encode d' := by
  have whole : ∀ entry ∈ d.history, ∃ owner bytes, encode entry.1 = some bytes ∧ d'.files[entry.2]? = some (owner,bytes) := by
    intro entry member
    obtain ⟨owner,bytes,encoded,there⟩ := common.whole entry member
    exact ⟨owner,bytes,encoded,change.kept there (.inr ⟨entry,member,rfl⟩)⟩
  cases change with
  | same => exact common
  | made => exact ⟨whole,common.newest⟩
  | wrote bytes mine apart => exact ⟨whole,common.newest⟩
  | placed encoded mine =>
    refine ⟨List.forall_mem_append.mpr ⟨whole,List.forall_mem_singleton.mpr ⟨i,_,encoded,mine⟩⟩,?_⟩
    rw [List.getLast?_append]
    rfl

theorem Newest.later {since : Nat} {value : Option (α × Nat)} (newest : Newest d since value)
    (longer : d.history <+: d'.history) : Newest d' since value := by
  obtain ⟨more,same⟩ := longer
  refine ⟨Nat.le_trans newest.1 (by rw [← same]; simp),?_⟩
  rw [← same,List.take_append_of_le_length newest.1]
  exact newest.2

/-- What another thread knows stays true. -/
theorem Knows.change (theirs : Knows encode j d p) (apart : j ≠ i) (change : Change encode i d d') : Knows encode j d' p := by
  cases p with
  | idle => trivial
  | failed => trivial
  | writing value file left =>
    obtain ⟨unplaced,bytes,written,encoded,split,there⟩ := theirs
    refine ⟨?_,bytes,written,encoded,split,change.kept there (.inl apart)⟩
    cases change with
    | placed encoded' mine =>
      refine List.forall_mem_append.mpr ⟨unplaced,List.forall_mem_singleton.mpr ?_⟩
      rintro rfl
      rw [there] at mine
      exact apart (Prod.mk.inj (Option.some.inj mine)).1
    | _ => exact unplaced
  | reading file got since =>
    obtain ⟨value,newest,bytes,encoded,some⟩ := theirs
    exact ⟨value,newest.later change.history,bytes,encoded,some⟩
  | loaded bytes since =>
    obtain ⟨value,newest,same⟩ := theirs
    exact ⟨value,newest.later change.history,same⟩

/-- The newest value and its file, as a reader finds them. -/
theorem newest_now (common : Common encode d) {file : Nat} (placed : d.path = some file) :
    ∃ value, Newest d d.history.length (some (value,file)) := by
  have last := common.newest
  rw [placed] at last
  obtain ⟨⟨value,file'⟩,found,same⟩ := Option.map_eq_some_iff.mp last.symm
  obtain rfl : file' = file := same
  exact ⟨value,Nat.le_refl _,by rw [List.take_length]; exact found⟩

/-- The file of a value that was the newest once holds its encoding. -/
theorem newest_whole (common : Common encode d) {since : Nat} {value : α} {file : Nat}
    (newest : Newest d since (some (value,file))) : ∃ owner bytes, encode value = some bytes ∧ d.files[file]? = some (owner,bytes) :=
  common.whole _ (List.mem_of_mem_take (List.mem_of_getLast? newest.2))

/-- A step makes one change to the files, and the thread knows where it is. -/
theorem step_knows {reply : Reply α} (stepped : step encode i reply d p = some (d',p')) (common : Common encode d)
    (mine : Knows encode i d p) : Change encode i d d' ∧ Knows encode i d' p' := by
  cases p with
  | idle =>
    cases reply with
    | save value =>
      rcases encoded : encode value with _ | bytes
      · simp only [step,encoded] at stepped
        cases stepped
        exact ⟨.same,trivial⟩
      · simp only [step,encoded] at stepped
        cases stepped
        refine ⟨.made,fun entry member same => ?_,bytes,[],encoded,rfl,?_⟩
        · -- whatever is in place was made before
          obtain ⟨owner,_,-,there⟩ := common.whole entry member
          rw [same] at there
          exact Nat.lt_irrefl _ (List.getElem?_eq_some_iff.mp there).1
        · exact List.getElem?_concat_length
    | load =>
      rcases placed : d.path with _ | file
      · simp only [step,placed] at stepped
        cases stepped
        have last := common.newest
        rw [placed] at last
        refine ⟨.same,none,⟨Nat.le_refl _,?_⟩,rfl⟩
        rw [List.take_length]
        exact Option.map_eq_none_iff.mp last.symm
      · simp only [step,placed] at stepped
        cases stepped
        obtain ⟨value,newest⟩ := newest_now common placed
        obtain ⟨-,bytes,encoded,-⟩ := newest_whole common newest
        exact ⟨.same,value,newest,bytes,encoded,List.nil_prefix⟩
    | moved | refused | again => cases stepped
  | writing value file left =>
    obtain ⟨unplaced,bytes,written,encoded,split,there⟩ := mine
    cases reply with
    | moved count =>
      rcases left with _ | ⟨b,left⟩
      · cases stepped
        rw [List.append_nil] at split
        subst split
        exact ⟨.placed encoded there,trivial⟩
      · cases stepped
        refine ⟨.wrote _ there unplaced,unplaced,bytes,_,encoded,?_,Disk.extend_self there _⟩
        rw [split,List.append_assoc,List.take_append_drop]
    | refused =>
      cases stepped
      exact ⟨.same,trivial⟩
    | save | load | again => cases stepped
  | reading file got since =>
    obtain ⟨value,newest,bytes,encoded,some⟩ := mine
    obtain ⟨owner,bytes',encoded',there⟩ := newest_whole common newest
    obtain rfl : bytes = bytes' := Option.some.inj (encoded.symm.trans encoded')
    cases reply with
    | moved count =>
      simp only [step,there] at stepped
      split_ifs at stepped with ended
      · cases stepped
        exact ⟨.same,_,newest,by rw [some.eq_of_length_le ended]; exact encoded.symm⟩
      · cases stepped
        refine ⟨.same,value,newest,bytes,encoded,?_⟩
        obtain ⟨more,rfl⟩ := some
        rw [List.drop_left]
        exact List.prefix_append_right_inj _ |>.mpr (List.take_prefix ..)
    | save | load | refused | again => cases stepped
  | loaded | failed =>
    cases reply <;> cases stepped
    exact ⟨.same,trivial⟩

theorem outlook (encode : α → Option (List β)) : Outlook (Moves (ι := ι) encode) (Common encode) (Knows encode) where
  own := by
    rintro i d d' p p' ⟨reply,stepped⟩ common mine
    exact (step_knows stepped common mine).2
  shared := by
    rintro i d d' p p' ⟨reply,stepped⟩ common mine
    exact common.change (step_knows stepped common mine).1
  others := by
    rintro i j d d' p p' u apart ⟨reply,stepped⟩ common mine theirs
    exact theirs.change apart (step_knows stepped common mine).1

/-! ### Reading a replaced file -/

variable [DecidableEq ι]

/-- What is in place is whole, and whoever has read got the newest value of the time when it opened the file, whole. -/
structure Atomic (encode : α → Option (List β)) (c : Config ι (Disk ι α β) (Phase α β)) : Prop
    extends Common encode c.shared where
  loaded : ∀ i bytes since, c.thread i = .loaded bytes since → since ≤ c.shared.history.length ∧
    bytes = (c.shared.history.take since).getLast?.bind fun entry => encode entry.1

theorem runs_atomic {c : Config ι (Disk ι α β) (Phase α β)} (run : Runs (Moves encode) (start (β := β)) c) : Atomic encode c := by
  obtain ⟨common,knows⟩ := (outlook encode).kept run ⟨⟨nofun,rfl⟩,fun _ => trivial⟩
  refine ⟨common,fun i bytes since loaded => ?_⟩
  have known := knows i
  rw [loaded] at known
  obtain ⟨value,newest,same⟩ := known
  exact ⟨newest.1,by rw [newest.2]; exact same⟩

end

end AtomicFiles
