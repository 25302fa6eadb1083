import HexAgent.Policy

/-!
The gate for git. The policy reads the subcommand at the place right behind the program, but
git takes global options there: with one of them in front a mutation is not seen.
-/
namespace HexAgent.GitGate
open HexAgent.Values HexAgent.Schemas HexAgent.Policy
open HexAgent.Events (lower lowerChar)

/-- An option: an argument that begins with a dash. -/
def Dashed (v : PyVal) : Prop := v.text.toList.head? = some '-'

/-- A command that runs a mutation of git: the first argument that is no option is one, in any case,
    and the program is git, under any path. -/
def Mutates (argv : List PyVal) : Prop := ∃ program options sub rest, argv = program :: (options ++ sub :: rest) ∧
  exeOf program ∈ ["git","git.exe"] ∧ (∀ option ∈ options, Dashed option) ∧ ¬ Dashed sub ∧ lower sub.text ∈ GIT_MUTATIONS

/-- Nobody runs it: the policy refuses, and so nothing reaches the tool behind the wrapper, and the terminal
    starts no process. -/
structure Refused (jail : Jail) (argv : List PyVal) : Prop where
  classified : (classify_terminal jail (.list argv)).allowed = false
  wrapped : ∀ policy inner (request : ToolRequest), request.name ∈ TERMINALS → request.args.get "argv" = .list argv →
    (SafeToolPort.execute jail policy inner request).2 = []
  direct : ∀ run (request : ToolRequest), request.args.get "argv" = .list argv → (Terminal.execute jail run request).2 = []

section
variable {jail : Jail} {argv : List PyVal}

theorem refused_of_classified (classified : (classify_terminal jail (.list argv)).allowed = false) : Refused jail argv := by
  refine ⟨classified,fun policy inner request name given => ?_,fun run request given => ?_⟩
  · unfold SafeToolPort.execute ToolPolicy.check
    simp only [if_pos name,given,classified]
    rfl
  · unfold Terminal.execute
    rw [given]
    cases argv with
    | nil => rfl
    | cons program rest => simp [classified]

theorem dashed_no_mutation {v : PyVal} (dashed : Dashed v) : lower v.text ∉ GIT_MUTATIONS := by
  have head : (lower v.text).toList.head? = some '-' := by
    rw [lower,String.toList_ofList,List.head?_map,dashed]
    rfl
  intro mutation
  have none : ∀ name ∈ GIT_MUTATIONS, name.toList.head? ≠ some '-' := by decide
  exact none _ mutation head

/-- With the variable unset a mutation of git is refused, by the policy, the wrapper and the terminal, exactly when no
    option stands before it, or a shell token or a path outside the workspace stands in the command. -/
theorem mutation_refused_iff (unset : jail.allow_git_mutations = none) (mutates : Mutates argv) :
    Refused jail argv ↔ (∃ program sub rest, argv = program :: sub :: rest ∧ ¬ Dashed sub) ∨
      (∃ part ∈ argv, ∃ tok ∈ SHELL_TOKENS, contains tok part.text = true) ∨ _argv_escapes_workspace jail argv = true := by
  obtain ⟨program,options,sub,rest,rfl,git,dashed,plain,mutation⟩ := mutates
  have noShell : ∀ exe ∈ ["git","git.exe"], exe ∉ SHELL_EXES ∧ exe ∉ DESTRUCTIVE_EXES := by decide
  have silent : _truthy jail.allow_git_mutations = false := by
    rw [unset]
    decide +kernel
  have token_iff : ((program :: (options ++ sub :: rest)).any fun part => SHELL_TOKENS.any fun tok => contains tok part.text) = true ↔
      ∃ part ∈ program :: (options ++ sub :: rest), ∃ tok ∈ SHELL_TOKENS, contains tok part.text = true := by
    simp only [List.any_eq_true]
  have eq : (classify_terminal jail (.list (program :: (options ++ sub :: rest)))).allowed = false ↔
      ((options ++ sub :: rest).head?.any fun sub => lower sub.text ∈ GIT_MUTATIONS) = true ∨
      ((program :: (options ++ sub :: rest)).any fun part => SHELL_TOKENS.any fun tok => contains tok part.text) = true ∨
        _argv_escapes_workspace jail (program :: (options ++ sub :: rest)) = true := by
    unfold classify_terminal
    simp only [if_neg (noShell _ git).1,if_neg (noShell _ git).2,git,silent,true_and,Bool.false_eq_true,not_false_eq_true,and_true]
    split_ifs with token first leaving
    · exact ⟨fun _ => .inr (.inl token),fun _ => rfl⟩
    · exact ⟨fun _ => .inl first,fun _ => rfl⟩
    · exact ⟨fun _ => .inr (.inr leaving),fun _ => rfl⟩
    · refine ⟨fun allowed => absurd allowed (by decide),?_⟩
      rintro (here | there | outside)
      · exact absurd here first
      · exact absurd there token
      · exact absurd outside leaving
  rw [token_iff] at eq
  have first_iff : ((options ++ sub :: rest).head?.any fun sub => lower sub.text ∈ GIT_MUTATIONS) = true ↔
      ∃ program' sub' rest', program :: (options ++ sub :: rest) = program' :: sub' :: rest' ∧ ¬ Dashed sub' := by
    cases options with
    | nil =>
      refine ⟨fun _ => ⟨program,sub,rest,rfl,plain⟩,fun _ => ?_⟩
      simpa using mutation
    | cons option options =>
      have dash := dashed option List.mem_cons_self
      constructor
      · intro first
        exact absurd (by simpa using first) (dashed_no_mutation dash)
      · rintro ⟨program',sub',rest',same,other⟩
        cases same
        exact absurd dash other
  rw [first_iff] at eq
  exact ⟨fun refused => eq.mp refused.classified,fun condition => refused_of_classified (eq.mpr condition)⟩

end

/-! ### Two commits -/

theorem plain_commit : ¬ Dashed (.str "commit") := by
  unfold Dashed
  decide +kernel

/-- A plain commit is refused. -/
theorem commit_refused : Refused workshop [.str "git",.str "commit"] := by
  have mutates : Mutates [.str "git",.str "commit"] :=
    ⟨.str "git",[],.str "commit",[],rfl,by decide +kernel,by simp,plain_commit,by decide +kernel⟩
  exact (mutation_refused_iff rfl mutates).mpr (.inl ⟨_,_,_,rfl,plain_commit⟩)

/-- With an option in front it is run. -/
theorem paged_commit_runs : Mutates [.str "git",.str "--no-pager",.str "commit"] ∧
    ¬ Refused workshop [.str "git",.str "--no-pager",.str "commit"] := by
  refine ⟨⟨.str "git",[.str "--no-pager"],.str "commit",[],rfl,by decide +kernel,?_,plain_commit,by decide +kernel⟩,fun refused => ?_⟩
  · intro option member
    rw [List.mem_singleton.mp member]
    rfl
  · exact absurd refused.classified (by decide +kernel)

end HexAgent.GitGate
