import HexAgent.Policy
import Mathlib.Data.List.TakeWhile

/-!
Which paths of a command the policy sees. It looks for an absolute path anywhere inside an
argument, so of an argument that is itself a path it sees what stands from the first slash on,
and nothing when no slash stands in front of something else.
-/
namespace HexAgent.Escapes
open HexAgent.Values HexAgent.Policy Paths

/-! ### What the expression finds -/

/-- A character of a path that stands alone: the expression runs over it. -/
def Plain (c : Char) : Prop := wordChar c = true ∧ c ≠ '\\' ∧ c ≠ Char.ofNat 0

instance : DecidablePred Plain := fun _ => inferInstanceAs (Decidable (_ ∧ _ ∧ _))

/-- A letter and a colon at the end of a text. -/
def drive : List Char → List Char
  | [] => []
  | c :: rest => if rest = [':'] ∧ c.isAlpha = true then [c,':'] else drive rest

section
variable {cs before after : List Char} {c : Char}

theorem plain_run (plain : ∀ c ∈ cs, Plain c) : cs.takeWhile wordChar = cs ∧ cs.dropWhile wordChar = [] :=
  ⟨List.takeWhile_eq_self_iff.mpr fun _ member => (plain _ member).1,List.dropWhile_eq_nil_iff.mpr fun _ member => (plain _ member).1⟩

theorem rootPath_eq (plain : ∀ c ∈ cs, Plain c) : rootPath ('/' :: cs) = if cs = [] then none else some ('/' :: cs,[]) := by
  unfold rootPath
  simp only [(plain_run plain).1,(plain_run plain).2]
  by_cases none : cs = []
  · rw [if_pos none,if_neg (not_not.mpr none)]
  · rw [if_neg none,if_pos none]

theorem rootPath_other (other : c ≠ '/') : rootPath (c :: cs) = none := by
  unfold rootPath
  split
  · next same =>
    cases same
    exact absurd rfl other
  · rfl

/-- In front of a colon a letter is found with all that follows, when a slash and more follow. -/
theorem drivePath_eq (plain : ∀ c ∈ cs, Plain c) : drivePath (c :: ':' :: cs) =
    if c.isAlpha = true ∧ cs.head? = some '/' ∧ 2 ≤ cs.length then some (c :: ':' :: cs,[]) else none := by
  have noBackslash : cs.head? ≠ some '\\' := fun head => (plain _ (List.mem_of_mem_head? head)).2.1 rfl
  unfold drivePath
  simp only [(plain_run plain).1,(plain_run plain).2,noBackslash,false_or]

theorem drivePath_other (other : cs.head? ≠ some ':') : drivePath (c :: cs) = none := by
  unfold drivePath
  split
  · next letter rest same =>
    cases same
    exact absurd rfl other
  · rfl

/-- Without a slash nothing is found. -/
theorem findPaths_plain (fuel : Nat) (plain : ∀ c ∈ cs, Plain c) (noSlash : '/' ∉ cs) : findPaths fuel cs = [] := by
  induction fuel generalizing cs with
  | zero => rfl
  | succ fuel ih =>
    cases cs with
    | nil => rfl
    | cons c rest =>
      rw [List.mem_cons,not_or] at noSlash
      obtain ⟨here,later⟩ := List.forall_mem_cons.mp plain
      have none : drivePath (c :: rest) = none := by
        by_cases colon : rest.head? = some ':'
        · obtain ⟨more,rfl⟩ := List.head?_eq_some_iff.mp colon
          rw [drivePath_eq fun d member => later d (List.mem_cons_of_mem _ member)]
          refine if_neg fun found => noSlash.2 (List.mem_cons_of_mem _ (List.mem_of_mem_head? found.2.1))
        · exact drivePath_other colon
      rw [findPaths,none,rootPath_other (Ne.symm noSlash.1)]
      exact ih later noSlash.2

/-- From the first slash on everything is found, with a drive in front of it, when more than a slash is there. -/
theorem findPaths_slash {fuel : Nat} (enough : before.length + 1 < fuel)
    (plain : ∀ c ∈ before ++ '/' :: after, Plain c) (noSlash : '/' ∉ before) :
    findPaths fuel (before ++ '/' :: after) = if after = [] then [] else [drive before ++ '/' :: after] := by
  induction before generalizing fuel with
  | nil =>
    obtain ⟨fuel,rfl⟩ := Nat.exists_eq_add_of_lt enough
    obtain ⟨-,later⟩ := List.forall_mem_cons.mp plain
    have none : drivePath ('/' :: after) = none := by
      by_cases colon : after.head? = some ':'
      · obtain ⟨more,rfl⟩ := List.head?_eq_some_iff.mp colon
        rw [drivePath_eq fun d member => later d (List.mem_cons_of_mem _ member)]
        exact if_neg fun found => absurd found.1 (by decide)
      · exact drivePath_other colon
    rw [List.nil_append,findPaths,none,rootPath_eq later]
    by_cases last : after = []
    · rw [if_pos last,if_pos last,last]
      cases fuel <;> rfl
    · rw [if_neg last,if_neg last]
      cases fuel <;> rfl
  | cons c before ih =>
    obtain ⟨fuel,rfl⟩ := Nat.exists_eq_add_of_lt enough
    rw [List.mem_cons,not_or] at noSlash
    obtain ⟨-,later⟩ := List.forall_mem_cons.mp plain
    have skips : drivePath (c :: (before ++ '/' :: after)) = none →
        findPaths (before.length + 1 + 1 + fuel + 1) (c :: (before ++ '/' :: after)) =
          if after = [] then [] else [drive before ++ '/' :: after] := by
      intro none
      rw [findPaths,none,rootPath_other (Ne.symm noSlash.1)]
      exact ih (by omega) later noSlash.2
    have length : (c :: before).length + 1 + fuel + 1 = before.length + 1 + 1 + fuel + 1 := by simp
    rw [length,List.cons_append,drive]
    by_cases lettered : before = [':'] ∧ c.isAlpha = true
    · rw [if_pos lettered]
      obtain ⟨rfl,letter⟩ := lettered
      have seen : drivePath (c :: ':' :: '/' :: after) = _ :=
        drivePath_eq fun d member => later d (List.mem_cons_of_mem _ member)
      by_cases last : after = []
      · rw [skips (by rw [List.singleton_append,seen,if_neg (by simp [last])]),if_pos last,if_pos last]
      · have long : 2 ≤ ('/' :: after).length := by
          have := List.length_pos_of_ne_nil last
          simp only [List.length_cons]
          omega
        have found : c.isAlpha = true ∧ ('/' :: after).head? = some '/' ∧ 2 ≤ ('/' :: after).length := ⟨letter,rfl,long⟩
        rw [if_pos found] at seen
        rw [if_neg last,findPaths,List.singleton_append,seen]
        cases fuel <;> rfl
    · rw [if_neg lettered]
      refine skips ?_
      by_cases colon : (before ++ '/' :: after).head? = some ':'
      · cases before with
        | nil => exact absurd colon (by simp)
        | cons d before =>
          cases colon
          have others : ∀ d ∈ before ++ '/' :: after, Plain d := fun d member => later d (List.mem_cons_of_mem _ member)
          rw [List.cons_append,drivePath_eq others]
          refine if_neg fun found => lettered ⟨?_,found.1⟩
          cases before with
          | nil => rfl
          | cons e before =>
            have slash := Option.some.inj found.2.1
            exact absurd (by simp [slash]) noSlash.2
      · exact drivePath_other colon

theorem collapse_plain (plain : ∀ c ∈ cs, Plain c) : collapse cs = cs := by
  induction cs with
  | nil => rfl
  | cons c rest ih =>
    obtain ⟨here,later⟩ := List.forall_mem_cons.mp plain
    have steps : collapse (c :: rest) = c :: collapse rest := by
      rw [collapse.eq_def]
      split
      · next same =>
        cases same
        exact absurd rfl here.2.1
      · next same =>
        cases same
        rfl
      · next same => cases same
    rw [steps,ih later]

/-- The first slash of a text is where it is. -/
theorem first_slash {front back : List Char} (same : before ++ '/' :: after = front ++ '/' :: back) (noSlash : '/' ∉ before)
    (noSlash' : '/' ∉ front) : before = front ∧ after = back := by
  have run : ∀ front back : List Char, '/' ∉ front → (front ++ '/' :: back).takeWhile (· ≠ '/') = front := by
    intro front back clean
    have inside : ∀ c ∈ front, decide (c ≠ '/') = true :=
      fun c member => decide_eq_true fun slash => clean (slash ▸ member)
    rw [List.takeWhile_append_of_pos inside]
    simp
  have front_eq : before = front := by rw [← run before after noSlash,same,run front back noSlash']
  subst front_eq
  exact ⟨rfl,(List.cons.inj (List.append_cancel_left same)).2⟩

theorem drive_mem (member : c ∈ drive before) : c ∈ before := by
  induction before with
  | nil => exact absurd member (by simp [drive])
  | cons d rest ih =>
    unfold drive at member
    split at member
    · next lettered => rwa [lettered.1]
    · exact List.mem_cons_of_mem _ (ih member)

end

/-! ### Arguments that are paths -/

/-- An argument that is one path: not empty, without blanks, quotes and backslashes, and beginning
    neither with a drive nor with the home directory. -/
structure SinglePath (s : String) : Prop where
  nonempty : s ≠ ""
  plain : ∀ c ∈ s.toList, Plain c
  noDrive : ¬ ((s.toList.head?.any Char.isAlpha) = true ∧ s.toList.tail.head? = some ':')
  noHome : s.toList.head? ≠ some '~'

section
variable (jail : Jail)

/-- The workspace, where a command is run. -/
def home : PosixPath := ⟨true,jail.workspace,fun name member => (jail.workspace_names name member).1⟩

/-- A path outside the workspace, for a command that is run in it. -/
def Outside (s : String) : Prop := ¬ jail.workspace <+: ((home jail).join s).resolve jail.cwd

/-- From its first slash on, with a drive that stands in front of the slash, the path is another
    one, which lies outside the workspace. -/
def BehindOutside (s : String) : Prop := ∃ before after, s.toList = before ++ '/' :: after ∧ '/' ∉ before ∧ after ≠ [] ∧
  ¬ jail.workspace <+: (parse (String.ofList (drive before ++ '/' :: after))).resolve jail.cwd

/-- The policy sees right which commands leave the workspace. -/
structure Jailed (program : PyVal) (args : List String) : Prop where
  seen : _argv_escapes_workspace jail (program :: args.map .str) = true ↔ ∃ s ∈ args, Outside jail s
  kept : (classify_terminal jail (.list (program :: args.map .str))).allowed = true → ∀ s ∈ args, ¬ Outside jail s
  refused : (classify_terminal jail (.list (program :: args.map .str))).code = "path_escape" → ∃ s ∈ args, Outside jail s

end

section
variable {jail : Jail} {program : PyVal} {args : List String} {s : String} {candidate : List Char}

theorem leaves_iff (plain : ∀ c ∈ candidate, Plain c) :
    leaves jail candidate = true ↔ ¬ jail.workspace <+: (parse (String.ofList candidate)).resolve jail.cwd := by
  have clean : Char.ofNat 0 ∉ candidate := fun member => (plain _ member).2.2 rfl
  unfold leaves
  rw [collapse_plain plain]
  simp [clean]

/-- Of a path the policy sees what begins at its first slash. -/
theorem found_iff (single : SinglePath s) :
    (findPaths (s.toList.length + 1) s.toList).any (leaves jail) = true ↔ BehindOutside jail s := by
  by_cases slash : '/' ∈ s.toList
  · obtain ⟨before,after,split,noSlash⟩ := List.eq_append_cons_of_mem slash
    have plain : ∀ c ∈ before ++ '/' :: after, Plain c := split ▸ single.plain
    have enough : before.length + 1 < s.toList.length + 1 := by simp [split]
    rw [split] at enough ⊢
    rw [findPaths_slash enough plain noSlash]
    by_cases last : after = []
    · rw [if_pos last]
      refine ⟨fun found => absurd found (by simp),fun outside => ?_⟩
      obtain ⟨front,back,split',noSlash',more,-⟩ := outside
      exact absurd ((first_slash (split ▸ split') noSlash noSlash').2 ▸ last) more
    · have candidate : ∀ c ∈ drive before ++ '/' :: after, Plain c := by
        intro c member
        rcases List.mem_append.mp member with front | back
        · exact plain c (List.mem_append_left _ (drive_mem front))
        · exact plain c (List.mem_append_right _ back)
      rw [if_neg last,List.any_cons,List.any_nil,Bool.or_false,leaves_iff candidate]
      constructor
      · intro outside
        exact ⟨before,after,split,noSlash,last,outside⟩
      · rintro ⟨front,back,split',noSlash',more,outside⟩
        obtain ⟨rfl,rfl⟩ := first_slash (split ▸ split') noSlash noSlash'
        exact outside
  · rw [findPaths_plain _ single.plain slash]
    refine ⟨fun found => absurd found (by simp),fun outside => ?_⟩
    obtain ⟨before,after,split,-,-,-⟩ := outside
    exact absurd (by simp [split]) slash

theorem escapes_iff (single : ∀ s ∈ args, SinglePath s) :
    _argv_escapes_workspace jail (program :: args.map .str) = true ↔ ∃ s ∈ args, BehindOutside jail s := by
  unfold _argv_escapes_workspace
  rw [List.drop_succ_cons,List.drop_zero,List.any_map,List.any_eq_true]
  constructor
  · rintro ⟨s,member,found⟩
    exact ⟨s,member,(found_iff (single s member)).mp found⟩
  · rintro ⟨s,member,outside⟩
    exact ⟨s,member,(found_iff (single s member)).mpr outside⟩

theorem allowed_stays {argv : List PyVal} (allowed : (classify_terminal jail (.list (program :: argv))).allowed = true) :
    _argv_escapes_workspace jail (program :: argv) = false := by
  unfold classify_terminal at allowed
  dsimp only at allowed
  split_ifs at allowed with _ _ _ _ leaving
  exact Bool.eq_false_iff.mpr leaving

theorem escape_leaves {argv : List PyVal} (code : (classify_terminal jail (.list (program :: argv))).code = "path_escape") :
    _argv_escapes_workspace jail (program :: argv) = true := by
  unfold classify_terminal at code
  dsimp only at code
  split_ifs at code with shell token destructive mutation leaving
  · exact absurd code (by decide)
  · exact absurd code (by decide)
  · exact absurd code (by decide)
  · exact absurd (show "git_mutation" = "path_escape" from code) (by decide)
  · exact leaving
  · exact absurd code (by decide)

theorem jailed_of_seen (seen : _argv_escapes_workspace jail (program :: args.map .str) = true ↔ ∃ s ∈ args, Outside jail s) :
    Jailed jail program args := by
  refine ⟨seen,fun allowed s member outside => ?_,fun code => seen.mp (escape_leaves code)⟩
  have leaving := seen.mpr ⟨s,member,outside⟩
  rw [allowed_stays allowed] at leaving
  cases leaving

/-- The policy sees right which commands leave the workspace exactly when an argument that lies outside comes with one
    that lies outside from its first slash on, and the other way around. -/
theorem jailed_iff (single : ∀ s ∈ args, SinglePath s) : Jailed jail program args ↔
    ((∃ s ∈ args, Outside jail s) ∧ ∃ s ∈ args, BehindOutside jail s) ∨
      ((∀ s ∈ args, ¬ Outside jail s) ∧ ∀ s ∈ args, ¬ BehindOutside jail s) := by
  have eq := @escapes_iff jail program args single
  constructor
  · intro jailed
    have same := eq.symm.trans jailed.seen
    by_cases outside : ∃ s ∈ args, Outside jail s
    · exact .inl ⟨outside,same.mpr outside⟩
    · refine .inr ⟨fun s member leaves => outside ⟨s,member,leaves⟩,fun s member leaves => outside (same.mp ⟨s,member,leaves⟩)⟩
  · intro agree
    refine jailed_of_seen (eq.trans ?_)
    rcases agree with ⟨outside,behind⟩ | ⟨inside,within⟩
    · exact ⟨fun _ => outside,fun _ => behind⟩
    · refine ⟨fun found => ?_,fun found => ?_⟩
      · obtain ⟨s,member,leaves⟩ := found
        exact absurd leaves (within s member)
      · obtain ⟨s,member,leaves⟩ := found
        exact absurd leaves (inside s member)

/-- A path from the root is seen as what it is. -/
theorem behind_absolute {after : List Char} (absolute : s.toList = '/' :: after) (more : after ≠ []) :
    BehindOutside jail s ↔ Outside jail s := by
  have rooted : isabs s = true := by
    unfold isabs
    rw [absolute]
    rfl
  have whole : String.ofList (drive [] ++ '/' :: after) = s := by
    rw [drive,List.nil_append,← absolute,String.ofList_toList]
  unfold Outside PosixPath.join
  rw [if_pos rooted]
  constructor
  · rintro ⟨front,back,split,noSlash,-,outside⟩
    obtain ⟨rfl,rfl⟩ := @first_slash [] after front back (absolute ▸ split) (by simp) noSlash
    rwa [whole] at outside
  · intro outside
    exact ⟨[],after,absolute,by simp,more,whole ▸ outside⟩

/-- Of paths from the root the policy sees right which leave the workspace. -/
theorem absolute_jailed (single : ∀ s ∈ args, SinglePath s) (absolute : ∀ s ∈ args, ∃ after, s.toList = '/' :: after ∧ after ≠ []) :
    Jailed jail program args := by
  refine jailed_of_seen ((escapes_iff single).trans (exists_congr fun s => and_congr_right fun member => ?_))
  obtain ⟨after,split,more⟩ := absolute s member
  exact behind_absolute split more

end

/-! ### Two commands -/

theorem plain_of_all {s : String} (all : s.toList.all (Plain ·) = true) : ∀ c ∈ s.toList, Plain c :=
  fun c member => of_decide_eq_true (List.all_eq_true.mp all c member)

theorem passwd_outside : Outside workshop "/etc/passwd" := by
  unfold Outside
  decide +kernel

/-- A file outside the workspace, named from the root. -/
theorem passwd_refused : Jailed workshop (.str "cat") ["/etc/passwd"] := by
  have single : ∀ s ∈ ["/etc/passwd"], SinglePath s := by
    intro s member
    rw [List.mem_singleton.mp member]
    exact ⟨by decide,plain_of_all (by decide +kernel),by decide +kernel,by decide +kernel⟩
  refine (jailed_iff single).mpr (.inl ⟨⟨_,List.mem_cons_self,passwd_outside⟩,_,List.mem_cons_self,[],"etc/passwd".toList,?_⟩)
  exact ⟨by decide +kernel,by decide,by decide +kernel,by decide +kernel⟩

theorem main_inside : ∀ s ∈ ["src/main.py"], SinglePath s ∧ ¬ Outside workshop s := by
  intro s member
  rw [List.mem_singleton.mp member]
  refine ⟨⟨by decide,plain_of_all (by decide +kernel),by decide +kernel,by decide +kernel⟩,?_⟩
  unfold Outside
  decide +kernel

/-- A file inside the workspace is taken for one at the root, and the command refused. -/
theorem relative_refused : (∀ s ∈ ["src/main.py"], SinglePath s ∧ ¬ Outside workshop s) ∧
    (classify_terminal workshop (.list [.str "cat",.str "src/main.py"])).code = "path_escape" ∧
    ¬ Jailed workshop (.str "cat") ["src/main.py"] := by
  refine ⟨main_inside,by decide +kernel,fun jailed => ?_⟩
  obtain ⟨s,member,outside⟩ := jailed.seen.mp (by decide +kernel)
  exact (main_inside s member).2 outside

end HexAgent.Escapes
