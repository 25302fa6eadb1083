import Mathlib.Data.List.Basic

/-!
POSIX paths as they are written: joined, taken apart and resolved by their text alone,
without links. A path keeps its names in order; empty names and `.` are dropped when it is
read, `..` stays until it is resolved.
-/
namespace Paths

/-- The parts of a text between slashes. -/
def segments : List Char → List (List Char)
  | [] => [[]]
  | c :: rest => if c = '/' then [] :: segments rest else (c :: (segments rest).headD []) :: (segments rest).tail

theorem segments_ne_nil (cs : List Char) : segments cs ≠ [] := by
  cases cs with
  | nil => simp [segments]
  | cons c rest =>
    unfold segments
    split <;> simp

theorem segments_plain {cs : List Char} (plain : '/' ∉ cs) : segments cs = [cs] := by
  induction cs with
  | nil => rfl
  | cons c rest ih =>
    rw [List.mem_cons,not_or] at plain
    rw [segments,if_neg (Ne.symm plain.1),ih plain.2]
    rfl

/-- No part holds a slash. -/
theorem segments_clean (cs : List Char) : ∀ segment ∈ segments cs, '/' ∉ segment := by
  induction cs with
  | nil => simp [segments]
  | cons c rest ih =>
    unfold segments
    by_cases slash : c = '/'
    · rw [if_pos slash,List.forall_mem_cons]
      exact ⟨by simp,ih⟩
    · rw [if_neg slash,List.forall_mem_cons]
      obtain ⟨first,more,split⟩ := List.exists_cons_of_ne_nil (segments_ne_nil rest)
      rw [split] at ih ⊢
      obtain ⟨here,later⟩ := List.forall_mem_cons.mp ih
      refine ⟨?_,later⟩
      rw [List.headD_cons,List.mem_cons,not_or]
      exact ⟨Ne.symm slash,here⟩

/-- What a part of a path can be: a name, or `..`. -/
def Component (part : String) : Prop := part ≠ "" ∧ part ≠ "." ∧ '/' ∉ part.toList

/-- A path: whether it begins at the root, and its parts. -/
structure PosixPath where
  rooted : Bool
  parts : List String
  proper : ∀ part ∈ parts, Component part

/-- The parts that are kept of a text. -/
def partsOf (s : String) : List String :=
  ((segments s.toList).filter fun segment => segment ≠ [] ∧ segment ≠ ['.']).map String.ofList

theorem partsOf_proper (s : String) : ∀ part ∈ partsOf s, Component part := by
  intro part member
  obtain ⟨segment,kept,rfl⟩ := List.mem_map.mp member
  obtain ⟨inText,kind⟩ := List.mem_filter.mp kept
  obtain ⟨some,other⟩ := of_decide_eq_true kind
  refine ⟨fun empty => some ?_,fun dot => other ?_,?_⟩
  · simpa using congrArg String.toList empty
  · simpa using congrArg String.toList dot
  · rw [String.toList_ofList]
    exact segments_clean _ segment inText

def isabs (s : String) : Bool := s.toList.head? = some '/'

/-- A path read from its text. -/
def parse (s : String) : PosixPath := ⟨isabs s,partsOf s,partsOf_proper s⟩

/-- A path below another one, unless it begins at the root: `p / s`. -/
def PosixPath.join (p : PosixPath) (s : String) : PosixPath :=
  if isabs s then parse s
  else ⟨p.rooted,p.parts ++ partsOf s,List.forall_mem_append.mpr ⟨p.proper,partsOf_proper s⟩⟩

/-- The path without its last part. -/
def PosixPath.parent (p : PosixPath) : PosixPath :=
  ⟨p.rooted,p.parts.dropLast,fun part member => p.proper part (List.dropLast_subset _ member)⟩

/-- One part further from the root; `..` goes back, and stays at the root. -/
def walk (names : List String) (part : String) : List String := if part = ".." then names.dropLast else names ++ [part]

/-- The names from the root, seen from the current directory. -/
def PosixPath.resolve (cwd : List String) (p : PosixPath) : List String :=
  ((if p.rooted then [] else cwd) ++ p.parts).foldl walk []

/-- A name of a directory. -/
def Name (s : String) : Prop := Component s ∧ s ≠ ".."

section
variable {p : PosixPath} {s : String} {cwd : List String}

theorem isabs_slash (absolute : isabs s = true) : '/' ∈ s.toList := List.mem_of_mem_head? (of_decide_eq_true absolute)

theorem partsOf_part (part : Component s) : partsOf s = [s] := by
  obtain ⟨some,other,plain⟩ := part
  unfold partsOf
  rw [segments_plain plain,List.filter_cons_of_pos,List.filter_nil,List.map_singleton,String.ofList_toList]
  refine decide_eq_true ⟨fun empty => some ?_,fun dot => other ?_⟩
  · rw [← String.ofList_toList (s := s),empty]
  · rw [← String.ofList_toList (s := s),dot]

theorem join_part (part : Component s) : (p.join s).rooted = p.rooted ∧ (p.join s).parts = p.parts ++ [s] := by
  have relative : ¬ isabs s = true := fun absolute => part.2.2 (isabs_slash absolute)
  unfold PosixPath.join
  rw [if_neg relative]
  exact ⟨rfl,congrArg (p.parts ++ ·) (partsOf_part part)⟩

/-- The parent of a part below a path is the path. -/
theorem parent_join (part : Component s) : (p.join s).parent = p := by
  obtain ⟨rooted,parts⟩ := join_part (p := p) part
  unfold PosixPath.parent
  obtain ⟨pRooted,pParts,proper⟩ := p
  simp [rooted,parts]

/-- A name below a path is a direct child of it. -/
theorem resolve_join (name : Name s) : (p.join s).resolve cwd = p.resolve cwd ++ [s] := by
  obtain ⟨rooted,parts⟩ := join_part (p := p) name.1
  unfold PosixPath.resolve
  rw [rooted,parts,← List.append_assoc,List.foldl_append,List.foldl_cons,List.foldl_nil,walk,if_neg name.2]

/-- A text that is no part at all leaves the path as it is. -/
theorem join_nothing (relative : isabs s = false) (none : partsOf s = []) : p.join s = p := by
  unfold PosixPath.join
  rw [if_neg (by rw [relative]; simp)]
  obtain ⟨rooted,parts,proper⟩ := p
  simp [none]

end

end Paths
