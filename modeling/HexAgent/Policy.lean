import HexAgent.Events
import HexAgent.Paths
import HexAgent.Schemas
import Mathlib.Data.List.Infix

/-!
The policy in front of the tools. A command for the terminal is an argument list that is run
without a shell in the workspace: programs, shell tokens, git subcommands and paths outside
the workspace are refused, by the wrapper around the tools and by the terminal itself.
-/
namespace HexAgent.Policy
open HexAgent.Values HexAgent.Schemas Paths
open HexAgent.Events (lower)

/-- What the policy takes from the process: the workspace as an absolute path without `.` and `..`,
    the current directory, and the variable `AGENT_ALLOW_GIT_MUTATIONS`. -/
structure Jail where
  workspace : List String
  workspace_names : ∀ name ∈ workspace, Name name
  cwd : List String
  allow_git_mutations : Option String := none

def SHELL_EXES : List String := ["bash","sh","zsh","cmd","cmd.exe","powershell","powershell.exe","pwsh"]
def SHELL_TOKENS : List String := ["|","&",";",">","<","\x60","$(","&&","||"]
def DESTRUCTIVE_EXES : List String := ["rm","del","rmdir","format","mkfs","dd"]
def GIT_MUTATIONS : List String := ["add","commit","reset","checkout","rebase","push","merge","branch","stash"]

/-! ### Texts -/

/-- `part in text`. -/
def contains (part text : String) : Bool := decide (part.toList <:+: text.toList)

/-- `_truthy`: the variable says yes. -/
def _truthy (value : Option String) : Bool := lower (strip (value.getD "")) ∈ ["1","true","yes","on"]

/-! ### Paths in an argument -/

/-- The class `[^\\s'"]`. -/
def wordChar (c : Char) : Bool := !isSpace c && c ≠ '\'' && c ≠ '\"'

/-- A drive letter with slashes and more behind it: `[A-Za-z]:[\\\\/]+[^\\s'"]+`. The match, and what follows it. -/
def drivePath : List Char → Option (List Char × List Char)
  | letter :: ':' :: rest =>
    let run := rest.takeWhile wordChar
    if letter.isAlpha ∧ (run.head? = some '\\' ∨ run.head? = some '/') ∧ 2 ≤ run.length then
      some (letter :: ':' :: run,rest.dropWhile wordChar)
    else none
  | _ => none

/-- A slash with more behind it: `/[^\\s'"]+`. -/
def rootPath : List Char → Option (List Char × List Char)
  | '/' :: rest =>
    let run := rest.takeWhile wordChar
    if run ≠ [] then some ('/' :: run,rest.dropWhile wordChar) else none
  | _ => none

/-- `_ABS_PATH_RE.findall`. -/
def findPaths : Nat → List Char → List (List Char)
  | 0,_ => []
  | _+1,[] => []
  | fuel+1,c :: rest =>
    match (drivePath (c :: rest)).or (rootPath (c :: rest)) with
    | some (found,after) => found :: findPaths fuel after
    | none => findPaths fuel rest

/-- Doubled backslashes made single. -/
def collapse : List Char → List Char
  | '\\' :: '\\' :: rest => '\\' :: collapse rest
  | c :: rest => c :: collapse rest
  | [] => []

section
variable (jail : Jail)

/-- The path that was found lies outside the workspace; one that cannot be resolved is skipped. -/
def leaves (candidate : List Char) : Bool :=
  let normalized := collapse candidate
  Char.ofNat 0 ∉ normalized && !decide (jail.workspace <+: (parse (String.ofList normalized)).resolve jail.cwd)

def _argv_escapes_workspace (argv : List PyVal) : Bool :=
  (argv.drop 1).any fun part => (findPaths (part.text.toList.length + 1) part.text.toList).any (leaves jail)

/-! ### Decisions -/

structure PolicyDecision where
  allowed : Bool
  reason : String := ""
  code : String := ""
  risk : String := "low"
  deriving DecidableEq, Repr

/-- The name of a program, without its directory and in lower case. -/
def exeOf (argv0 : PyVal) : String :=
  let text := argv0.text.toList.map fun c => if c = '\\' then '/' else c
  lower (String.ofList ((segments text).getLast (segments_ne_nil text)))

def classify_terminal : PyVal → PolicyDecision
  | .list (program :: rest) =>
    let argv := program :: rest
    let exe := exeOf program
    if exe ∈ SHELL_EXES then ⟨false,"shell executables are not allowed; pass argv directly","shell_exe","blocked"⟩
    else if argv.any fun part => SHELL_TOKENS.any fun tok => contains tok part.text then
      ⟨false,"shell control/redirection tokens are not allowed","shell_token","blocked"⟩
    else if exe ∈ DESTRUCTIVE_EXES then ⟨false,"destructive command blocked","destructive","blocked"⟩
    else if exe ∈ ["git","git.exe"] ∧ (rest.head?.any fun sub => lower sub.text ∈ GIT_MUTATIONS) ∧
        ¬ _truthy jail.allow_git_mutations then
      ⟨false,"git " ++ (rest.head?.map PyVal.text).getD "" ++ " blocked (set AGENT_ALLOW_GIT_MUTATIONS=1)","git_mutation","blocked"⟩
    else if _argv_escapes_workspace jail argv then
      ⟨false,"argv references an absolute path outside the workspace","path_escape","blocked"⟩
    else { allowed := true }
  | _ => ⟨false,"terminal requires a non-empty argv list","bad_argv","blocked"⟩

def WHOLE_FILE_WRITES : List String := ["fs_write","fs.write","file_write"]
/-- The names under which the terminal is called. -/
def TERMINALS : List String := ["terminal_run","terminal.run","terminal"]

structure ToolPolicy where
  repair_mode : Bool := false

def ToolPolicy.check (policy : ToolPolicy) (tool_name : String) (args : Fields) : PolicyDecision :=
  if tool_name ∈ TERMINALS then classify_terminal jail (args.get "argv")
  else if (["git_commit","git_add","git_reset","git_checkout","git_push"].any fun m => contains m tool_name) ∧
      ¬ _truthy jail.allow_git_mutations then
    ⟨false,"git mutation tool '" ++ tool_name ++ "' blocked","git_mutation","blocked"⟩
  else if policy.repair_mode ∧ tool_name ∈ WHOLE_FILE_WRITES then
    ⟨false,"in repair mode a whole-file rewrite is blocked; use a patch tool","repair_requires_patch_tool","blocked"⟩
  else { allowed := true }

/-! ### Running a tool -/

/-- A tool behind the policy: what it answers, and the requests that reached the tool inside. -/
def SafeToolPort.execute (policy : ToolPolicy) (inner : ToolRequest → Except PyError PyVal) (request : ToolRequest) :
    Except PyError PyVal × List ToolRequest :=
  let decision := policy.check jail request.name request.args
  if decision.allowed then (inner request,[request])
  else (.ok (.dict [("ok",.bool false),("tool",.str request.name),("policy_blocked",.bool true),
    ("policy_code",.str decision.code),("error",.str decision.reason),("metadata",.dict [("risk",.str decision.risk)])]),[])

/-- A process that ended. -/
structure Completed where
  returncode : Int
  stdout : String
  stderr : String

/-- Why a process did not end by itself. -/
inductive Unfinished where
  | notFound (message : String)
  | timeout
  | other (error : PyError)

/-- The terminal: what it answers, and the argument lists that were run. -/
def Terminal.execute (run : List String → Int → Except Unfinished Completed) (request : ToolRequest) :
    Except PyError PyVal × List (List String) :=
  match request.args.get "argv" with
  | .list (program :: rest) =>
    let argv := program :: rest
    let decision := classify_terminal jail (.list argv)
    if decision.allowed then
      match (request.args.getD "timeout" (.int 10)).toInt with
      | .error error => (.error error,[])
      | .ok seconds =>
        let timeout := min (max seconds 1) 30
        let command := argv.map PyVal.text
        match run command timeout with
        | .ok proc => (.ok (.dict [("ok",.bool (proc.returncode = 0)),("returncode",.int proc.returncode),
            ("stdout",.str proc.stdout),("stderr",.str proc.stderr)]),[command])
        | .error (.notFound message) =>
          (.ok (.dict [("ok",.bool false),("error",.str ("command not found: " ++ message))]),[command])
        | .error .timeout =>
          (.ok (.dict [("ok",.bool false),("error",.str ("timeout after " ++ toString timeout ++ "s"))]),[command])
        | .error (.other error) => (.error error,[command])
    else (.ok (.dict [("ok",.bool false),("error",.str decision.reason),("policy_blocked",.bool true),
      ("policy_code",.str decision.code)]),[])
  | _ => (.ok (.dict [("ok",.bool false),("error",.str "argv must be a non-empty list")]),[])

end

/-! ### A workspace -/

theorem name_ws : ∀ name ∈ ["ws"], Name name := by
  intro name member
  rw [List.mem_singleton.mp member]
  exact ⟨⟨by decide,by decide,by decide⟩,by decide⟩

def workshop : Jail := ⟨["ws"],name_ws,["ws"],none⟩

end HexAgent.Policy
