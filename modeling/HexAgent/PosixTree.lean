import HexAgent.Dicts
import Mathlib.Data.List.Infix
import Mathlib.Order.Basic

/-!
A tree of files with symbolic links, and the resolution of paths in it. A path is resolved name by
name, each link by its target, and a link that is met again while it is being resolved is a loop. A
path that was resolved without a loop leads through no link (`Real`), and what is written there
changes no link, so every path keeps its resolution (`resolve_same`).
-/
namespace PosixTree
open Dicts

/-! ### Trees -/

/-- Where a link leads: from the root or from its own directory, part by part. -/
structure Target where
  rooted : Bool
  parts : List String
deriving DecidableEq

inductive Node (γ : Type) where
  | file (content : γ)
  | dir
  | link (target : Target)
deriving DecidableEq

def Node.isDir {γ : Type} : Node γ → Bool
  | .dir => true
  | _ => false

/-- What is at a path from the root, which is a directory itself. -/
def nodeAt {γ : Type} (nodes : Dict (List String) (Node γ)) (p : List String) : Option (Node γ) :=
  if p = [] then some .dir else nodes.get p

/-- The nodes below the root, by their names from there; each lies in a directory, and has this one name: there are no
    hard links and no mounts. -/
structure FileTree (γ : Type) where
  nodes : Dict (List String) (Node γ)
  grounded : ∀ p ∈ nodes.keys, p ≠ [] ∧ (nodeAt nodes p.dropLast).any Node.isDir = true

section
variable {γ : Type}

def FileTree.at (t : FileTree γ) (p : List String) : Option (Node γ) := nodeAt t.nodes p
def FileTree.isDir (t : FileTree γ) (p : List String) : Bool := (t.at p).any Node.isDir

def FileTree.linkAt (t : FileTree γ) (p : List String) : Option Target :=
  match t.at p with
  | some (.link target) => some target
  | _ => none

/-- The paths of the links of a tree. -/
def FileTree.links (t : FileTree γ) : List (List String) := t.nodes.keys.filter fun p => (t.linkAt p).isSome

/-- The names in a directory. -/
def FileTree.names (t : FileTree γ) (p : List String) : List String :=
  t.nodes.keys.filterMap fun q => if q.dropLast = p then q.getLast? else none

/-- A tree with a new node, in the place of none or of one that nothing lies in. -/
def FileTree.set (t : FileTree γ) (p : List String) (node : Node γ) (free : t.isDir p.dropLast = true ∧ t.isDir p = false) : FileTree γ where
  nodes := t.nodes.put p node
  grounded := by
    have below : p ≠ [] := fun root => by cases root ▸ free.2
    intro q member
    rw [Dict.mem_keys_put] at member
    have apart : q.dropLast ≠ p → nodeAt (t.nodes.put p node) q.dropLast = nodeAt t.nodes q.dropLast := by
      intro other
      unfold nodeAt
      rw [Dict.get_put_other other]
    rcases member with rfl | member
    · have shorter : q.dropLast ≠ q := by
        intro same
        have length := congrArg List.length same
        have some := List.length_pos_of_ne_nil below
        rw [List.length_dropLast] at length
        omega
      exact ⟨below,by rw [apart shorter]; exact free.1⟩
    · obtain ⟨some,inDir⟩ := t.grounded q member
      have other : q.dropLast ≠ p := by
        rintro rfl
        exact absurd (inDir.symm.trans free.2) (by simp)
      exact ⟨some,by rw [apart other]; exact inDir⟩

/-! ### Resolution -/

/-- What is left to do: a part of a path, or a link that is resolved by now. -/
inductive Item where
  | part (name : String)
  | resolved (link : List String)
deriving DecidableEq

/-- The links met so far, and where they lead once they are resolved. -/
abbrev Seen := List (List String × Option (List String))

/-- The parts that are left. -/
def partsLeft (work : List Item) : List String :=
  work.filterMap fun
    | .part name => some name
    | .resolved _ => none

/-- A path that was resolved, or the place of a loop and the parts that were left there. -/
inductive Outcome where
  | real (p : List String)
  | loop (p : List String) (left : List String)
deriving DecidableEq

/-- Resolution up to the next link that was not met yet. -/
def advance (t : FileTree γ) (next : List String → List Item → Seen → Option Outcome) :
    List String → List Item → Seen → Option Outcome
  | p,[],_ => some (.real p)
  | p,.resolved link :: work,seen => advance t next p work (put link (some p) seen)
  | p,.part name :: work,seen =>
    if name = ".." then advance t next p.dropLast work seen else
    match t.linkAt (p ++ [name]) with
    | some target =>
      match get (p ++ [name]) seen with
      | some (some there) => advance t next there work seen
      | some none => some (.loop (p ++ [name]) (partsLeft work))
      | none => next (if target.rooted then [] else p) (target.parts.map .part ++ .resolved (p ++ [name]) :: work)
          (put (p ++ [name]) none seen)
    | none => advance t next (p ++ [name]) work seen

/-- Resolution through at most so many links. -/
def resolveBy (t : FileTree γ) : Nat → List String → List Item → Seen → Option Outcome
  | 0 => advance t fun _ _ _ => none
  | n + 1 => advance t (resolveBy t n)

/-- The resolution of a path from the root. -/
def FileTree.resolve (t : FileTree γ) (parts : List String) : Option Outcome :=
  resolveBy t t.links.length [] (parts.map .part) []

variable {t u : FileTree γ} {p q : List String} {seen : Seen} {work : List Item}

/-! ### Every path is resolved -/

/-- The links that were not met yet. -/
def unmet (t : FileTree γ) (seen : Seen) : List (List String) := t.links.filter fun link => get link seen = none

theorem mem_links {target : Target} (here : t.linkAt p = some target) : p ∈ t.links := by
  have there : t.at p = some (.link target) := by
    unfold FileTree.linkAt at here
    split at here
    · next found => rw [found,Option.some.inj here]
    · cases here
  have key : p ∈ t.nodes.keys := by
    unfold FileTree.at nodeAt at there
    split_ifs at there
    · cases there
    · exact Dict.mem_keys_of_get there
  exact List.mem_filter.mpr ⟨key,by rw [here]; rfl⟩

/-- Meeting a link leaves fewer to meet. -/
theorem unmet_less {target : Target} (here : t.linkAt p = some target) (fresh : get p seen = none) :
    (unmet t (put p none seen)).length < (unmet t seen).length := by
  have fewer : unmet t (put p none seen) = (unmet t seen).filter fun link => link ≠ p := by
    unfold unmet
    rw [List.filter_filter]
    refine List.filter_congr fun link _ => ?_
    rw [get_put]
    by_cases same : link = p <;> simp [same]
  have there : p ∈ unmet t seen := List.mem_filter.mpr ⟨mem_links here,by simpa using fresh⟩
  rw [fewer]
  exact List.length_filter_lt_length_iff_exists.mpr ⟨p,there,by simp⟩

/-- Learning where a link leads adds no link to meet. -/
theorem unmet_put (link : List String) (there : Option (List String)) :
    (unmet t (put link there seen)).length ≤ (unmet t seen).length := by
  refine (List.monotone_filter_right _ fun other => ?_).length_le
  rw [get_put]
  by_cases same : other = link <;> simp [same]

theorem advance_some {next : List String → List Item → Seen → Option Outcome} {n : Nat}
    (further : ∀ p work seen, (unmet t seen).length < n → (next p work seen).isSome) (work : List Item) (p : List String)
    (seen : Seen) (enough : (unmet t seen).length ≤ n) : (advance t next p work seen).isSome := by
  induction work generalizing p seen with
  | nil => rfl
  | cons item work ih =>
    cases item with
    | resolved link => exact ih p _ ((unmet_put link _).trans enough)
    | part name =>
      unfold advance
      split_ifs
      · exact ih _ _ enough
      · split
        · next target here =>
          split
          · exact ih _ _ enough
          · rfl
          · next fresh => exact further _ _ _ ((unmet_less here fresh).trans_le enough)
        · exact ih _ _ enough

theorem resolveBy_some {n : Nat} (enough : (unmet t seen).length ≤ n) : (resolveBy t n p work seen).isSome := by
  induction n generalizing p work seen with
  | zero => exact advance_some (fun _ _ _ less => absurd less (Nat.not_lt_zero _)) work p seen enough
  | succ n ih => exact advance_some (fun _ _ _ less => ih (Nat.lt_succ_iff.mp less)) work p seen enough

/-- Every path has a resolution, or runs into a loop. -/
theorem resolve_some (t : FileTree γ) (parts : List String) : ∃ outcome, t.resolve parts = some outcome :=
  Option.isSome_iff_exists.mp (resolveBy_some (List.length_filter_le ..))

def FileTree.resolution (t : FileTree γ) (parts : List String) : Outcome :=
  (t.resolve parts).get (Option.isSome_iff_exists.mpr (resolve_some t parts))

theorem resolution_eq (t : FileTree γ) (parts : List String) : t.resolve parts = some (t.resolution parts) := (Option.some_get _).symm

/-! ### Resolution depends on the links alone -/

/-- Two trees with the same links. -/
def SameLinks (t u : FileTree γ) : Prop := ∀ p, t.linkAt p = u.linkAt p

theorem advance_same (same : SameLinks t u) (next : List String → List Item → Seen → Option Outcome) (work : List Item)
    (p : List String) (seen : Seen) : advance t next p work seen = advance u next p work seen := by
  induction work generalizing p seen with
  | nil => rfl
  | cons item work ih =>
    cases item with
    | resolved link => exact ih ..
    | part name =>
      unfold advance
      simp only [same (p ++ [name]),ih]

theorem resolveBy_same (same : SameLinks t u) (n : Nat) : resolveBy t n = resolveBy u n := by
  induction n with
  | zero => funext p work seen; exact advance_same same ..
  | succ n ih =>
    funext p work seen
    rw [resolveBy,resolveBy,ih]
    exact advance_same same ..

theorem advance_more {next next' : List String → List Item → Seen → Option Outcome}
    (further : ∀ p work seen outcome, next p work seen = some outcome → next' p work seen = some outcome) (work : List Item)
    (p : List String) (seen : Seen) {outcome : Outcome} (resolved : advance t next p work seen = some outcome) :
    advance t next' p work seen = some outcome := by
  induction work generalizing p seen with
  | nil => exact resolved
  | cons item work ih =>
    cases item with
    | resolved link => exact ih _ _ resolved
    | part name =>
      unfold advance at resolved ⊢
      split_ifs at resolved ⊢
      · exact ih _ _ resolved
      · split at resolved
        · split at resolved
          · exact ih _ _ resolved
          · exact resolved
          · exact further _ _ _ _ resolved
        · exact ih _ _ resolved

/-- More links than there are change nothing. -/
theorem resolveBy_more {n : Nat} {outcome : Outcome} (resolved : resolveBy t n p work seen = some outcome) :
    resolveBy t (n + 1) p work seen = some outcome := by
  induction n generalizing p work seen outcome with
  | zero => exact advance_more (fun _ _ _ _ never => by cases never) work p seen resolved
  | succ n ih => exact advance_more (fun _ _ _ _ resolved => ih resolved) work p seen resolved

/-- Trees with the same links resolve every path in the same way. -/
theorem resolve_same (same : SameLinks t u) (parts : List String) : t.resolve parts = u.resolve parts := by
  have more : ∀ (t : FileTree γ) (m : Nat) (outcome : Outcome), t.resolve parts = some outcome →
      resolveBy t (t.links.length + m) [] (parts.map .part) [] = some outcome := by
    intro t m outcome resolved
    induction m with
    | zero => exact resolved
    | succ m ih => exact resolveBy_more ih
  obtain ⟨first,resolved⟩ := resolve_some t parts
  obtain ⟨second,resolved'⟩ := resolve_some u parts
  have one := more t u.links.length first resolved
  have two := more u t.links.length second resolved'
  rw [← resolveBy_same same,Nat.add_comm] at two
  rw [resolved,resolved',← one,← two]

theorem resolution_same (same : SameLinks t u) (parts : List String) : t.resolution parts = u.resolution parts :=
  Option.some.inj (by rw [← resolution_eq,← resolution_eq,resolve_same same])

/-! ### Paths without links -/

/-- No link on the way. -/
def Real (t : FileTree γ) (p : List String) : Prop := ∀ q, q <+: p → t.linkAt q = none

theorem Real.nil (t : FileTree γ) : Real t [] := by
  intro q some
  rw [List.prefix_nil.mp some]
  rfl

theorem Real.part (real : Real t p) (less : q <+: p) : Real t q := fun r some => real r (some.trans less)

theorem Real.snoc (real : Real t p) {name : String} (plain : t.linkAt (p ++ [name]) = none) : Real t (p ++ [name]) := by
  intro q some
  rcases List.prefix_concat_iff.mp some with rfl | less
  · exact plain
  · exact real q less

theorem Real.same (real : Real t p) (same : SameLinks t u) : Real u p := fun q some => (same q).symm.trans (real q some)

/-- A path of names: no part leads back. -/
def Named (p : List String) : Prop := ∀ name ∈ p, name ≠ ".."

/-- The resolved links lead to paths of names, without a link on the way. -/
def Settled (t : FileTree γ) (seen : Seen) : Prop := ∀ link p, get link seen = some (some p) → Real t p ∧ Named p

theorem Settled.put (settled : Settled t seen) {link : List String} {there : Option (List String)}
    (real : ∀ p, there = some p → Real t p ∧ Named p) : Settled t (put link there seen) := by
  intro other p found
  rw [get_put] at found
  split_ifs at found
  · exact real p (Option.some.inj found)
  · exact settled other p found

theorem advance_real {next : List String → List Item → Seen → Option Outcome}
    (further : ∀ p work seen, Settled t seen → Real t p → Named p → next p work seen = some (.real q) → Real t q ∧ Named q)
    (work : List Item) (p : List String) (seen : Seen) (settled : Settled t seen) (real : Real t p) (plain : Named p)
    (resolved : advance t next p work seen = some (.real q)) : Real t q ∧ Named q := by
  induction work generalizing p seen with
  | nil =>
    cases resolved
    exact ⟨real,plain⟩
  | cons item work ih =>
    cases item with
    | resolved link => exact ih p _ (settled.put fun p' same => Option.some.inj same ▸ ⟨real,plain⟩) real plain resolved
    | part name =>
      unfold advance at resolved
      split_ifs at resolved with back
      · exact ih _ _ settled (real.part (List.dropLast_prefix p)) (fun name member => plain name (List.mem_of_mem_dropLast member))
          resolved
      · split at resolved
        · next target here =>
          split at resolved
          · next there found => exact ih _ _ settled (settled _ _ found).1 (settled _ _ found).2 resolved
          · cases resolved
          · refine further _ _ _ (settled.put fun p' same => by cases same) ?_ ?_ resolved
            · split
              · exact .nil t
              · exact real
            · split
              · exact fun name member => by cases member
              · exact plain
        · next here =>
          refine ih _ _ settled (real.snoc here) (fun other member => ?_) resolved
          rcases List.mem_append.mp member with before | last
          · exact plain other before
          · rwa [List.mem_singleton.mp last]

theorem resolveBy_real {n : Nat} (settled : Settled t seen) (real : Real t p) (plain : Named p)
    (resolved : resolveBy t n p work seen = some (.real q)) : Real t q ∧ Named q := by
  induction n generalizing p work seen with
  | zero => exact advance_real (fun _ _ _ _ _ _ never => by cases never) work p seen settled real plain resolved
  | succ n ih =>
    exact advance_real (fun _ _ _ settled real plain resolved => ih settled real plain resolved) work p seen settled real plain
      resolved

/-- What was resolved is a path of names, without a link on the way. -/
theorem resolution_real {parts : List String} (resolved : t.resolution parts = .real q) : Real t q ∧ Named q :=
  resolveBy_real (fun _ _ found => by cases found) (.nil t) (fun _ member => by cases member)
    ((resolution_eq t parts).trans (congrArg some resolved))

/-! ### What the system does -/

/-- Why the system refuses a path. -/
inductive Errno where
  | ENOENT
  | EEXIST
  | ENOTDIR
  | EISDIR
  | ELOOP
deriving DecidableEq

/-- What keeps the system from entering a directory. -/
def FileTree.bar (t : FileTree γ) (p : List String) : Option Errno :=
  match t.at p with
  | some .dir => none
  | some _ => some .ENOTDIR
  | none => some .ENOENT

/-- The way to a path up to the next link: every part is looked up in a directory. -/
def wander (t : FileTree γ) (next : List String → List String → Except Errno (List String)) :
    List String → List String → Except Errno (List String)
  | p,[] => .ok p
  | p,name :: rest =>
    match t.bar p with
    | some error => .error error
    | none =>
      if name = ".." then wander t next p.dropLast rest else
      match t.linkAt (p ++ [name]) with
      | some target => next (if target.rooted then [] else p) (target.parts ++ rest)
      | none => wander t next (p ++ [name]) rest

def wanderBy (t : FileTree γ) : Nat → List String → List String → Except Errno (List String)
  | 0 => wander t fun _ _ => .error .ELOOP
  | n + 1 => wander t (wanderBy t n)

/-- Where a path leads, through at most forty links; nothing has to be there. -/
def FileTree.walk (t : FileTree γ) (p : List String) : Except Errno (List String) := wanderBy t 40 [] p

/-- What the system finds at a path. -/
def FileTree.stat (t : FileTree γ) (p : List String) : Option (Node γ) :=
  match t.walk p with
  | .ok q => t.at q
  | .error _ => none

/-- A new directory. -/
def FileTree.mkdir (t : FileTree γ) (p : List String) : Except Errno (FileTree γ) :=
  match p.getLast? with
  | none => .error .EEXIST
  | some name =>
    match t.walk p.dropLast with
    | .error error => .error error
    | .ok up =>
      match t.bar up with
      | some error => .error error
      | none =>
        if free : t.isDir (up ++ [name]).dropLast = true ∧ t.isDir (up ++ [name]) = false ∧ t.at (up ++ [name]) = none then
          .ok (t.set (up ++ [name]) .dir ⟨free.1,free.2.1⟩)
        else .error .EEXIST

/-- A file with this content, which was there before or not. -/
def FileTree.write (t : FileTree γ) (p : List String) (content : γ) : Except Errno (FileTree γ) :=
  match t.walk p with
  | .error error => .error error
  | .ok q =>
    if free : t.isDir q.dropLast = true ∧ t.isDir q = false then .ok (t.set q (.file content) free)
    else .error (if t.isDir q then .EISDIR else .ENOENT)

/-- The outcome for a directory that may be there already. -/
def FileTree.allow (t : FileTree γ) (p : List String) : Except Errno (FileTree γ) → Except (Errno × List String) (FileTree γ)
  | .ok made => .ok made
  | .error error => if error ≠ .ENOENT ∧ (t.stat p).any Node.isDir then .ok t else .error (error,p)

/-- A directory, with those above it that are missing. The names are given from the last one on. -/
def FileTree.makeDirs (t : FileTree γ) : List String → Except (Errno × List String) (FileTree γ)
  | [] => .ok t
  | name :: up =>
    match t.mkdir (name :: up).reverse with
    | .error .ENOENT =>
      match t.makeDirs up with
      | .error error => .error error
      | .ok above => above.allow (name :: up).reverse (above.mkdir (name :: up).reverse)
    | .ok made => t.allow (name :: up).reverse (.ok made)
    | .error error => t.allow (name :: up).reverse (.error error)

/-! ### What is set -/

section
variable {node : Node γ} {free : t.isDir p.dropLast = true ∧ t.isDir p = false}

@[simp] theorem at_nil (t : FileTree γ) : t.at [] = some .dir := rfl
@[simp] theorem isDir_nil (t : FileTree γ) : t.isDir [] = true := rfl

theorem isDir_iff : t.isDir p = true ↔ t.at p = some .dir := by
  unfold FileTree.isDir
  cases t.at p with
  | none => simp
  | some node => cases node <;> simp [Node.isDir]

theorem below_root (free : t.isDir p.dropLast = true ∧ t.isDir p = false) : p ≠ [] := by
  rintro rfl
  cases free.2

theorem at_set : (t.set p node free).at q = if q = p then some node else t.at q := by
  unfold FileTree.at nodeAt FileTree.set
  by_cases root : q = []
  · rw [if_pos root,if_pos root,if_neg]
    rintro rfl
    exact below_root free root
  · rw [if_neg root,if_neg root,Dict.get_put]

/-- What is there lies in a directory. -/
theorem dir_above {name : String} (there : t.at (p ++ [name]) ≠ none) : t.isDir p = true := by
  obtain ⟨node,found⟩ := Option.ne_none_iff_exists'.mp there
  have key : p ++ [name] ∈ t.nodes.keys := by
    unfold FileTree.at nodeAt at found
    rw [if_neg (by simp)] at found
    exact Dict.mem_keys_of_get found
  have grounded := (t.grounded _ key).2
  rwa [List.dropLast_concat] at grounded

theorem dirs_above (there : t.isDir (p ++ q) = true) : t.isDir p = true := by
  induction q using List.reverseRecOn with
  | nil => rwa [List.append_nil] at there
  | append_singleton q name ih =>
    rw [← List.append_assoc] at there
    exact ih (dir_above fun gone => by rw [isDir_iff.mp there] at gone; cases gone)

/-- A node that is no link, in the place of none, changes no link. -/
theorem set_links (plain : t.linkAt p = none) (kind : ∀ target, node ≠ .link target) : SameLinks t (t.set p node free) := by
  intro q
  by_cases here : q = p
  · subst here
    rw [plain]
    unfold FileTree.linkAt
    rw [at_set,if_pos rfl]
    cases node with
    | link target => exact absurd rfl (kind target)
    | file content => rfl
    | dir => rfl
  · unfold FileTree.linkAt
    rw [at_set,if_neg here]

end

theorem mem_keys : q ∈ t.nodes.keys ↔ q ≠ [] ∧ t.at q ≠ none := by
  constructor
  · intro member
    have below := (t.grounded q member).1
    refine ⟨below,fun gone => ?_⟩
    unfold FileTree.at nodeAt at gone
    rw [if_neg below] at gone
    exact Dict.get_eq_none_iff.mp gone member
  · rintro ⟨below,there⟩
    unfold FileTree.at nodeAt at there
    rw [if_neg below] at there
    obtain ⟨node,found⟩ := Option.ne_none_iff_exists'.mp there
    exact Dict.mem_keys_of_get found

theorem whole_name {name : String} (found : (if q.dropLast = p then q.getLast? else none) = some name) : q = p ++ [name] := by
  split_ifs at found with up
  rw [← up]
  exact (List.dropLast_append_getLast? name found).symm

theorem mem_names {name : String} : name ∈ t.names p ↔ t.at (p ++ [name]) ≠ none := by
  unfold FileTree.names
  rw [List.mem_filterMap]
  constructor
  · rintro ⟨q,key,found⟩
    exact whole_name found ▸ (mem_keys.mp key).2
  · intro there
    exact ⟨p ++ [name],mem_keys.mpr ⟨by simp,there⟩,by simp⟩

theorem names_nodup (t : FileTree γ) (p : List String) : (t.names p).Nodup :=
  List.Nodup.filterMap (fun _ _ _ found found' => (whole_name found).trans (whole_name found').symm) t.nodes.nodup

/-- Directories with the same in them have the same names in them. -/
theorem names_perm (same : ∀ name, t.at (p ++ [name]) = u.at (p ++ [name])) : (t.names p).Perm (u.names p) :=
  (List.perm_ext_iff_of_nodup (names_nodup t p) (names_nodup u p)).mpr fun name => by rw [mem_names,mem_names,same]

/-! ### What the system does without links -/

theorem Named.part (plain : Named p) (less : q <+: p) : Named q := fun name member => plain name (less.subset member)

theorem wander_stays {next : List String → List String → Except Errno (List String)} {done rest : List String}
    (real : Real t (done ++ rest)) (plain : Named rest) (led : wander t next done rest = .ok q) : q = done ++ rest := by
  induction rest generalizing done with
  | nil =>
    rw [List.append_nil]
    exact (Except.ok.inj led).symm
  | cons name rest ih =>
    have here : t.linkAt (done ++ [name]) = none := real _ ⟨rest,by simp⟩
    unfold wander at led
    split at led
    · cases led
    · rw [if_neg (plain name (List.mem_cons_self ..)),here] at led
      have further := ih (by simpa using real) (fun other member => plain other (List.mem_cons_of_mem _ member)) led
      simpa using further

theorem wander_barred {next : List String → List String → Except Errno (List String)} {done rest : List String} {error : Errno}
    (real : Real t (done ++ rest)) (plain : Named rest) (led : wander t next done rest = .error error) :
    ∃ q, q <+: done ++ rest ∧ q ≠ done ++ rest ∧ t.bar q = some error := by
  induction rest generalizing done with
  | nil => cases led
  | cons name rest ih =>
    have here : t.linkAt (done ++ [name]) = none := real _ ⟨rest,by simp⟩
    unfold wander at led
    split at led
    · next barred =>
      cases led
      exact ⟨done,List.prefix_append ..,by simp,barred⟩
    · rw [if_neg (plain name (List.mem_cons_self ..)),here] at led
      have further := ih (by simpa using real) (fun other member => plain other (List.mem_cons_of_mem _ member)) led
      simpa using further

theorem wander_open {next : List String → List String → Except Errno (List String)} {done rest : List String}
    (real : Real t (done ++ rest)) (plain : Named rest) (dirs : ∀ q, q <+: done ++ rest → q ≠ done ++ rest → t.isDir q = true) :
    wander t next done rest = .ok (done ++ rest) := by
  cases led : wander t next done rest with
  | ok q => rw [wander_stays real plain led]
  | error error =>
    obtain ⟨q,before,other,barred⟩ := wander_barred real plain led
    unfold FileTree.bar at barred
    rw [isDir_iff.mp (dirs q before other)] at barred
    cases barred

theorem walk_stays (real : Real t p) (plain : Named p) (led : t.walk p = .ok q) : q = p := wander_stays real plain led

theorem walk_barred {error : Errno} (real : Real t p) (plain : Named p) (led : t.walk p = .error error) :
    ∃ q, q <+: p ∧ q ≠ p ∧ t.bar q = some error := wander_barred real plain led

/-- Below a directory every path without links leads to itself. -/
theorem walk_open {name : String} (real : Real t (p ++ [name])) (plain : Named (p ++ [name])) (up : t.isDir p = true) :
    t.walk (p ++ [name]) = .ok (p ++ [name]) := by
  refine wander_open real plain fun q before other => ?_
  rcases List.prefix_concat_iff.mp before with rfl | above
  · exact absurd rfl other
  · obtain ⟨rest,rfl⟩ := above
    exact dirs_above up

theorem walk_dir (real : Real t p) (plain : Named p) (here : t.isDir p = true) : t.walk p = .ok p := by
  refine wander_open real plain fun q before _ => ?_
  obtain ⟨rest,same⟩ := before
  rw [List.nil_append] at same
  exact dirs_above (q := rest) (same ▸ here)

/-- Without links the system finds what is in the tree. -/
theorem stat_real (real : Real t p) (plain : Named p) : t.stat p = t.at p := by
  unfold FileTree.stat
  cases led : t.walk p with
  | ok q => rw [walk_stays real plain led]
  | error error =>
    induction p using List.reverseRecOn with
    | nil => cases led
    | append_singleton up name ih =>
      by_contra there
      have found := walk_open real plain (dir_above (Ne.symm there))
      rw [led] at found
      cases found

/-- The system makes a directory where its parent is there and nothing else is. -/
theorem mkdir_made {name : String} (real : Real t (p ++ [name])) (plain : Named (p ++ [name])) (up : t.isDir p = true)
    (new : t.at (p ++ [name]) = none) : ∃ made, t.mkdir (p ++ [name]) = .ok made ∧ SameLinks t made ∧
      ∀ q, made.at q = if q = p ++ [name] then some .dir else t.at q := by
  have free : t.isDir (p ++ [name]).dropLast = true ∧ t.isDir (p ++ [name]) = false := by
    rw [List.dropLast_concat]
    exact ⟨up,by unfold FileTree.isDir; rw [new]; rfl⟩
  refine ⟨t.set (p ++ [name]) .dir free,?_,set_links (real _ (List.prefix_refl _)) (fun target => by simp),fun q => at_set⟩
  have led := walk_dir (real.part (List.prefix_append ..)) (plain.part (List.prefix_append ..)) up
  have open_ : t.bar p = none := by
    unfold FileTree.bar
    rw [isDir_iff.mp up]
  unfold FileTree.mkdir
  rw [List.getLast?_concat]
  simp only [List.dropLast_concat] at free ⊢
  simp only [led,open_,free,new,and_self,↓reduceDIte]

/-- It does not make one that is there. -/
theorem mkdir_there {name : String} (real : Real t (p ++ [name])) (plain : Named (p ++ [name]))
    (there : t.at (p ++ [name]) ≠ none) : t.mkdir (p ++ [name]) = .error .EEXIST := by
  have up := dir_above there
  have led := walk_dir (real.part (List.prefix_append ..)) (plain.part (List.prefix_append ..)) up
  have open_ : t.bar p = none := by
    unfold FileTree.bar
    rw [isDir_iff.mp up]
  unfold FileTree.mkdir
  rw [List.getLast?_concat]
  simp only [List.dropLast_concat,led,open_,there,and_false,↓reduceDIte]

/-- Nor one whose parent is no directory. -/
theorem mkdir_barred {name : String} (real : Real t (p ++ [name])) (plain : Named (p ++ [name])) (up : t.isDir p = false) :
    ∃ error q, t.mkdir (p ++ [name]) = .error error ∧ q <+: p ∧ t.bar q = some error := by
  have real' := real.part (List.prefix_append p [name])
  have plain' := plain.part (List.prefix_append p [name])
  unfold FileTree.mkdir
  rw [List.getLast?_concat]
  simp only [List.dropLast_concat]
  cases led : t.walk p with
  | error error =>
    obtain ⟨q,before,-,barred⟩ := walk_barred real' plain' led
    exact ⟨error,q,rfl,before,barred⟩
  | ok q =>
    cases walk_stays real' plain' led
    cases barred : t.bar p with
    | some error => exact ⟨error,p,by simp [barred],List.prefix_refl p,barred⟩
    | none =>
      unfold FileTree.bar at barred
      split at barred
      · next here => rw [isDir_iff.mpr here] at up; cases up
      · cases barred
      · cases barred

theorem dir_on_way (here : t.isDir p = true) (before : q <+: p) : t.at q = some .dir := by
  obtain ⟨rest,same⟩ := before
  exact isDir_iff.mp (dirs_above (q := rest) (same ▸ here))

/-- Nothing but directories on the way to a path, as far as anything is there. -/
def Clear (t : FileTree γ) (p : List String) : Prop := ∀ q, q <+: p → t.at q = none ∨ t.at q = some .dir

theorem Clear.snoc {name : String} (clear : Clear t p) (here : t.at (p ++ [name]) = none ∨ t.at (p ++ [name]) = some .dir) :
    Clear t (p ++ [name]) := by
  intro q before
  rcases List.prefix_concat_iff.mp before with rfl | above
  · exact here
  · exact clear q above

theorem clear_dir (here : t.isDir p = true) : Clear t p := fun _ before => .inr (dir_on_way here before)

/-- A tree with the directories on the way to a path, and nothing else that is new. -/
structure Made (t : FileTree γ) (p : List String) (made : FileTree γ) : Prop where
  links : SameLinks t made
  after : ∀ q, made.at q = if q <+: p then some .dir else t.at q

theorem made_self (here : t.isDir p = true) : Made t p t := by
  refine ⟨fun q => rfl,fun q => ?_⟩
  split
  · next before => exact dir_on_way here before
  · rfl

theorem Made.isDir {made : FileTree γ} (built : Made t p made) : made.isDir p = true :=
  isDir_iff.mpr (by rw [built.after,if_pos (List.prefix_refl p)])

theorem Made.snoc {made last : FileTree γ} {name : String} (built : Made t p made) (links : SameLinks made last)
    (after : ∀ q, last.at q = if q = p ++ [name] then some .dir else made.at q) : Made t (p ++ [name]) last := by
  refine ⟨fun q => (built.links q).trans (links q),fun q => ?_⟩
  rw [after,built.after]
  by_cases here : q = p ++ [name]
  · simp [here]
  · simp [here,List.prefix_concat_iff]

/-- The outcome when the parent is there. -/
theorem allow_mkdir {name : String} (real : Real t (p ++ [name])) (plain : Named (p ++ [name])) (up : t.isDir p = true) :
    (Clear t (p ++ [name]) ∧ ∃ made, t.allow (p ++ [name]) (t.mkdir (p ++ [name])) = .ok made ∧ Made t (p ++ [name]) made) ∨
    (¬ Clear t (p ++ [name]) ∧ ∃ error, t.allow (p ++ [name]) (t.mkdir (p ++ [name])) = .error error) := by
  cases there : t.at (p ++ [name]) with
  | none =>
    obtain ⟨made,ran,links,after⟩ := mkdir_made real plain up there
    exact .inl ⟨(clear_dir up).snoc (.inl there),made,by rw [ran]; rfl,(made_self up).snoc links after⟩
  | some node =>
    rw [mkdir_there real plain (by simp [there])]
    cases kind : node.isDir with
    | true =>
      have dir : t.isDir (p ++ [name]) = true := by
        unfold FileTree.isDir
        rw [there]
        exact kind
      exact .inl ⟨clear_dir dir,t,by simp [FileTree.allow,stat_real real plain,there,kind],made_self dir⟩
    | false =>
      refine .inr ⟨fun all => ?_,(.EEXIST,p ++ [name]),by simp [FileTree.allow,stat_real real plain,there,kind]⟩
      rcases all _ (List.prefix_refl _) with gone | dir
      · rw [there] at gone
        cases gone
      · rw [there] at dir
        cases dir
        cases kind

/-- The directories on the way to a path are made if and only if nothing else is in the way. -/
theorem makeDirs_iff (names : List String) (real : Real t names.reverse) (plain : Named names.reverse) :
    (Clear t names.reverse ∧ ∃ made, t.makeDirs names = .ok made ∧ Made t names.reverse made) ∨
    (¬ Clear t names.reverse ∧ ∃ error, t.makeDirs names = .error error) := by
  induction names with
  | nil => exact .inl ⟨clear_dir (isDir_nil t),t,rfl,made_self (isDir_nil t)⟩
  | cons name up ih =>
    have snoc : (name :: up).reverse = up.reverse ++ [name] := List.reverse_cons
    rw [snoc] at real plain ⊢
    have above := ih (real.part (List.prefix_append ..)) (plain.part (List.prefix_append ..))
    unfold FileTree.makeDirs
    rw [snoc]
    cases inDir : t.isDir up.reverse with
    | true =>
      have direct := allow_mkdir real plain inDir
      have other : t.mkdir (up.reverse ++ [name]) ≠ .error .ENOENT := by
        intro refused
        by_cases there : t.at (up.reverse ++ [name]) = none
        · obtain ⟨made,ran,-⟩ := mkdir_made real plain inDir there
          rw [ran] at refused
          cases refused
        · rw [mkdir_there real plain there] at refused
          cases refused
      split
      · next refused => exact absurd refused other
      · next ran =>
        rw [ran] at direct
        exact direct
      · next _ refused =>
        rw [refused] at direct
        exact direct
    | false =>
      have missing : t.at (up.reverse ++ [name]) = none := by
        by_contra there
        rw [dir_above there] at inDir
        cases inDir
      obtain ⟨error,q,failed,before,barred⟩ := mkdir_barred real plain inDir
      have onWay := before.trans (List.prefix_append up.reverse [name])
      rw [failed]
      by_cases gone : error = .ENOENT
      · subst gone
        rcases above with ⟨clear,made,ran,built⟩ | ⟨blocked,error,ran⟩
        · have missing' : made.at (up.reverse ++ [name]) = none := by
            rw [built.after,if_neg,missing]
            intro longer
            have length := longer.length_le
            rw [List.length_append,List.length_singleton] at length
            omega
          obtain ⟨last,ran',links,after⟩ := mkdir_made (real.same built.links) plain built.isDir missing'
          exact .inl ⟨clear.snoc (.inl missing),last,by simp only [ran,ran']; rfl,built.snoc links after⟩
        · exact .inr ⟨fun clear => blocked fun q before => clear q (before.trans (List.prefix_append ..)),error,by simp only [ran]⟩
      · refine .inr ⟨fun clear => gone ?_,(error,up.reverse ++ [name]),?_⟩
        · unfold FileTree.bar at barred
          rcases clear q onWay with none | dir
          · rw [none] at barred
            exact (Option.some.inj barred).symm
          · rw [dir] at barred
            cases barred
        · cases error <;> simp_all [FileTree.allow,stat_real real plain]

/-- A file is written where its parent is a directory and it is none itself. -/
theorem write_iff {content : γ} (real : Real t p) (plain : Named p) :
    (∃ free : t.isDir p.dropLast = true ∧ t.isDir p = false, t.write p content = .ok (t.set p (.file content) free)) ∨
    ((t.isDir p.dropLast = false ∨ t.isDir p = true) ∧ ∃ error, t.write p content = .error error) := by
  unfold FileTree.write
  cases led : t.walk p with
  | error error =>
    refine .inr ⟨?_,error,rfl⟩
    by_contra free
    simp only [not_or,Bool.not_eq_false,Bool.not_eq_true] at free
    induction p using List.reverseRecOn with
    | nil => cases free.2
    | append_singleton up name ih =>
      rw [List.dropLast_concat] at free
      rw [walk_open real plain free.1] at led
      cases led
  | ok q =>
    cases walk_stays real plain led
    by_cases free : t.isDir p.dropLast = true ∧ t.isDir p = false
    · exact .inl ⟨free,by simp [free]⟩
    · refine .inr ⟨?_,_,dif_neg free⟩
      cases up : t.isDir p.dropLast with
      | false => exact .inl rfl
      | true => exact .inr (by simpa [up] using free)

/-! ### Trees that agree on the way to a path -/

/-- Two trees with the same links and the same on the way to a path. -/
structure Alike (p : List String) (t u : FileTree γ) : Prop where
  links : SameLinks t u
  way : ∀ q, q <+: p → t.at q = u.at q

theorem Alike.symm (alike : Alike p t u) : Alike p u t := ⟨fun q => (alike.links q).symm,fun q before => (alike.way q before).symm⟩

theorem Alike.part (alike : Alike p t u) (less : q <+: p) : Alike q t u :=
  ⟨alike.links,fun r before => alike.way r (before.trans less)⟩

theorem Alike.bar (alike : Alike p t u) (before : q <+: p) : t.bar q = u.bar q := by
  unfold FileTree.bar
  rw [alike.way q before]

theorem Alike.isDir (alike : Alike p t u) (before : q <+: p) : t.isDir q = u.isDir q := by
  unfold FileTree.isDir
  rw [alike.way q before]

theorem Alike.made {made made' : FileTree γ} (alike : Alike p t u) (built : Made t q made) (built' : Made u q made') :
    Alike p made made' := by
  refine ⟨fun r => ?_,fun r before => ?_⟩
  · rw [← built.links,← built'.links,alike.links]
  · rw [built.after,built'.after,alike.way r before]

theorem wander_alike {next next' : List String → List String → Except Errno (List String)} {done rest : List String}
    (alike : Alike (done ++ rest) t u) (real : Real t (done ++ rest)) (plain : Named rest) :
    wander t next done rest = wander u next' done rest := by
  induction rest generalizing done with
  | nil => rfl
  | cons name rest ih =>
    have here : t.linkAt (done ++ [name]) = none := real _ ⟨rest,by simp⟩
    have further := @ih (done ++ [name]) (by simpa using alike) (by simpa using real)
      fun other member => plain other (List.mem_cons_of_mem _ member)
    unfold wander
    rw [alike.bar (List.prefix_append ..),if_neg (plain name (List.mem_cons_self ..)),if_neg (plain name (List.mem_cons_self ..)),
      ← alike.links,here]
    simp only [further]

theorem walk_alike (alike : Alike p t u) (real : Real t p) (plain : Named p) : t.walk p = u.walk p := wander_alike alike real plain

theorem stat_alike (alike : Alike p t u) (real : Real t p) (plain : Named p) : t.stat p = u.stat p := by
  rw [stat_real real plain,stat_real (real.same alike.links) plain,alike.way p (List.prefix_refl p)]

/-- The system refuses a directory in both of them, for the same reason, or in none. -/
theorem mkdir_alike {error : Errno} (alike : Alike p t u) (real : Real t p) (plain : Named p)
    (refused : t.mkdir p = .error error) : u.mkdir p = .error error := by
  have same := walk_alike (alike.part (List.dropLast_prefix p)) (real.part (List.dropLast_prefix p))
    (plain.part (List.dropLast_prefix p))
  unfold FileTree.mkdir at refused ⊢
  split at refused
  · exact refused
  · next name last =>
    rw [← same]
    split at refused
    · exact refused
    · next up led =>
      have whole : up ++ [name] = p := by
        rw [walk_stays (real.part (List.dropLast_prefix p)) (plain.part (List.dropLast_prefix p)) led]
        exact List.dropLast_append_getLast? name last
      have here : up ++ [name] <+: p := by rw [whole]
      rw [← alike.bar ((List.prefix_append up [name]).trans here)]
      split at refused
      · exact refused
      · split at refused
        · cases refused
        · next taken =>
          rw [alike.isDir ((List.dropLast_prefix _).trans here),alike.isDir here,alike.way _ here] at taken
          rw [dif_neg taken]
          exact refused

theorem allow_alike {error : Errno × List String} (alike : Alike p t u) (real : Real t p) (plain : Named p)
    (refused : t.allow p (t.mkdir p) = .error error) : u.allow p (u.mkdir p) = .error error := by
  cases made : t.mkdir p with
  | ok made' =>
    rw [made] at refused
    cases refused
  | error why =>
    rw [mkdir_alike alike real plain made]
    rw [made] at refused
    unfold FileTree.allow at refused ⊢
    simp only [← stat_alike alike real plain] at refused ⊢
    by_cases there : why ≠ .ENOENT ∧ (t.stat p).any Node.isDir
    · rw [if_pos there] at refused
      cases refused
    · rw [if_neg there] at refused ⊢
      exact refused

theorem makeDirs_alike (names : List String) {error : Errno × List String} (alike : Alike names.reverse t u)
    (real : Real t names.reverse) (plain : Named names.reverse) (refused : t.makeDirs names = .error error) :
    u.makeDirs names = .error error := by
  induction names generalizing error with
  | nil => cases refused
  | cons name up ih =>
    have less : up.reverse <+: (name :: up).reverse := by simp
    unfold FileTree.makeDirs at refused ⊢
    cases made : t.mkdir (name :: up).reverse with
    | ok made' =>
      rw [made] at refused
      cases refused
    | error why =>
      rw [mkdir_alike alike real plain made]
      rw [made] at refused
      by_cases gone : why = .ENOENT
      · subst gone
        simp only at refused ⊢
        rcases makeDirs_iff up (real.part less) (plain.part less) with ⟨clear,above,ran,built⟩ | ⟨blocked,error',ran⟩
        · rcases makeDirs_iff up ((real.part less).same alike.links) (plain.part less) with ⟨-,above',ran',built'⟩ | ⟨blocked,-⟩
          · simp only [ran,ran'] at refused ⊢
            exact allow_alike (alike.made built built') (real.same built.links) plain refused
          · exact absurd (fun q before => alike.way q (before.trans less) ▸ clear q before) blocked
        · simp only [ran] at refused
          simp only [ih (alike.part less) (real.part less) (plain.part less) ran]
          exact refused
      · have direct := @allow_alike γ t u (name :: up).reverse error alike real plain
        rw [made,mkdir_alike alike real plain made] at direct
        cases why <;> first | exact absurd rfl gone | exact direct refused

theorem write_alike {content : γ} {error : Errno} (alike : Alike p t u) (real : Real t p) (plain : Named p)
    (refused : t.write p content = .error error) : u.write p content = .error error := by
  unfold FileTree.write at refused ⊢
  rw [← walk_alike alike real plain]
  split at refused
  · exact refused
  · next q led =>
    cases walk_stays real plain led
    split at refused
    · cases refused
    · next taken =>
      rw [alike.isDir (List.prefix_refl p)] at refused
      rw [alike.isDir (List.dropLast_prefix p),alike.isDir (List.prefix_refl p)] at taken
      rw [dif_neg taken]
      exact refused

end

end PosixTree
