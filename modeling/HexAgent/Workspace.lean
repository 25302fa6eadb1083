import HexAgent.Conversions
import HexAgent.LogReading
import HexAgent.Policy
import HexAgent.PosixTree

/-!
The file tools and the jail around them. A path is resolved in the tree of files, links included, and
is refused unless it lies in the workspace. Whatever the tools are called with, in any order, they change
and show the workspace alone, and a file is read back as it was last written. Both need a path without a
loop of links: a path that runs into one is not resolved any further, and can lead out of the workspace. A file
has one name; what the system refuses for a reason of its own comes with the call.
-/
namespace HexAgent.Workspace
open HexAgent.Values HexAgent.Json HexAgent.Schemas HexAgent.Policy HexAgent.LogReading Paths PosixTree

/-! ### The jail -/

/-- What the jail takes from the process: the variable `AGENT_WORKSPACE_DIR` or its default, and the current directory. -/
structure Process where
  AGENT_WORKSPACE_DIR : String
  cwd : List String

/-- `str` of a resolved path. -/
def pathText (p : List String) : String := "/" ++ join "/" p

/-- The parts of a path seen from a directory. -/
def below (base : List String) (text : String) : List String := (if isabs text then [] else base) ++ partsOf text

/-- `Path.resolve`: a path with a loop is kept as it is from there on, unless the system runs into the loop as well. -/
def resolved (t : FileTree ByteArray) (parts : List String) : Except PyError (List String) :=
  match t.resolution parts with
  | .real p => .ok p
  | .loop p left =>
    let s := (p ++ left).foldl walk []
    match t.walk s with
    | .error .ELOOP => .error (.RuntimeError ("Symlink loop from " ++ reprText (pathText s)))
    | _ => .ok s

def workspace_dir (process : Process) (t : FileTree ByteArray) : Except PyError (List String) :=
  resolved t (below process.cwd process.AGENT_WORKSPACE_DIR)

/-- The match of `_DRIVE_LETTER`. -/
def driveLetter : List Char → Bool
  | letter :: ':' :: _ => letter.isAlpha
  | _ => false

def sandboxError (message : String) : PyError := .Other "SandboxError" message

def _reject_foreign_path_syntax (raw_path : String) : Except PyError Unit :=
  if '\\' ∈ raw_path.toList then
    .error (sandboxError ("Path is outside workspace (Windows backslash separator): " ++ raw_path))
  else if driveLetter raw_path.toList then
    .error (sandboxError ("Path is outside workspace (Windows drive-letter prefix): " ++ raw_path))
  else .ok ()

def resolve_in_workspace (process : Process) (t : FileTree ByteArray) (raw_path : String) : Except PyError (List String) := do
  let workspace ← workspace_dir process t
  _reject_foreign_path_syntax raw_path
  if Char.ofNat 0 ∈ raw_path.toList then .error (.ValueError "embedded null byte") else
  let path ← resolved t (below workspace raw_path)
  if workspace <+: path then .ok path else .error (sandboxError ("Path is outside workspace: " ++ raw_path))

/-! ### The tools -/

/-- An `OSError` of the system. -/
def osError (errno : Errno) (p : List String) : PyError :=
  let message (text : String) := text ++ ": " ++ reprText (pathText p)
  match errno with
  | .ENOENT => .FileNotFoundError (message "[Errno 2] No such file or directory")
  | .EEXIST => .Other "FileExistsError" (message "[Errno 17] File exists")
  | .ENOTDIR => .Other "NotADirectoryError" (message "[Errno 20] Not a directory")
  | .EISDIR => .Other "IsADirectoryError" (message "[Errno 21] Is a directory")
  | .ELOOP => .Other "OSError" (message "[Errno 40] Too many levels of symbolic links")

def refusal (message : String) : PyVal := .dict [("ok",.bool false),("error",.str message)]

/-- What a tool makes of an error of the jail: `except SandboxError`. -/
def refused : PyError → Except PyError PyVal
  | .Other "SandboxError" message => .ok (refusal message)
  | error => .error error

/-- The system refuses a call for a reason of its own: a name that is too long, a missing permission, a full disk. A
    write is refused early, when so many of the directories above the file are there, or late, when so many bytes of it
    are. -/
inductive Denial where
  | early (exc : PyError) (dirs : Nat)
  | late (exc : PyError) (bytes : Nat)

def Denial.exc : Denial → PyError
  | .early exc _ | .late exc _ => exc

section
variable (process : Process) (t : FileTree ByteArray) (request : ToolRequest) (denial : Option Denial)

/-- The path of a request, with its default. -/
def pathArg (request : ToolRequest) (default : String) : PyVal := request.args.getD "path" (.str default)

/-- `resolve_in_workspace(str(v))`. -/
def placeOf (v : PyVal) : Except PyError (List String) := do
  let raw_path ← strOf v
  resolve_in_workspace process t raw_path

def FsRead.execute : Except PyError PyVal :=
  match placeOf process t (pathArg request "") with
  | .error error => refused error
  | .ok path =>
    match denial,t.stat path with
    | some denial,_ => .error denial.exc
    | none,some (.file bytes) =>
      match read_text bytes with
      | .ok content => .ok (.dict [("ok",.bool true),("path",.str (pathText path)),("content",.str content)])
      | .error _ => .ok (refusal ("File is not valid UTF-8 text: " ++ pathText path))
    | none,_ => .ok (refusal ("Not a file: " ++ pathText path))

def contentArg (request : ToolRequest) : PyVal := request.args.getD "content" (.str "")

/-- The directories above a path, the file with these bytes, and then the answer. -/
def filed (path : List String) (bytes : ByteArray) (answer : Except PyError PyVal) :
    Except PyError PyVal × FileTree ByteArray :=
  match t.makeDirs path.dropLast.reverse with
  | .error (errno,p) => (.error (osError errno p),t)
  | .ok above =>
    match above.write path bytes with
    | .error errno => (.error (osError errno path),above)
    | .ok written => (answer,written)

def FsWrite.execute : Except PyError PyVal × FileTree ByteArray :=
  match placeOf process t (pathArg request "") with
  | .error error => (refused error,t)
  | .ok path =>
    match strOf (contentArg request),denial with
    | .error exc,_ => (.error exc,t)
    | .ok _,some (.early exc dirs) =>
      match t.makeDirs (path.dropLast.take dirs).reverse with
      | .error (errno,p) => (.error (osError errno p),t)
      | .ok above => (.error exc,above)
    | .ok content,some (.late exc bytes) => filed t path (content.toByteArray.extract 0 bytes) (.error exc)
    | .ok content,none => filed t path content.toByteArray
        (.ok (.dict [("ok",.bool true),("path",.str (pathText path)),("bytes",.int content.utf8ByteSize)]))

def FsList.execute : Except PyError PyVal :=
  let entries (names : List String) := .ok (.dict [("ok",.bool true),("entries",.list (names.map .str))])
  match placeOf process t (pathArg request ".") with
  | .error error => refused error
  | .ok path =>
    match denial,t.walk path with
    | some denial,_ => .error denial.exc
    | none,.error _ => entries []
    | none,.ok place =>
      match t.at place with
      | none => entries []
      | some (.file _) => entries [path.getLastD ""]
      | some _ => entries (sortedTexts (t.names place))

/-- The file tools. -/
inductive FsTool where
  | read
  | write
  | list
deriving DecidableEq

def FsTool.name : FsTool → String
  | .read => "fs_read"
  | .write => "fs_write"
  | .list => "fs_list"

def FsTool.execute : FsTool → Except PyError PyVal × FileTree ByteArray
  | .read => (FsRead.execute process t request denial,t)
  | .write => FsWrite.execute process t request denial
  | .list => (FsList.execute process t request denial,t)

end

/-- A request for one of the tools, by its name, and what the system says to it. -/
structure Call where
  tool : FsTool
  request : ToolRequest
  named : request.name = tool.name
  denial : Option Denial := none

/-- The path that a call is about. -/
def Call.arg (call : Call) : PyVal := pathArg call.request (if call.tool = .list then "." else "")

section
variable (process : Process) (jail : Jail) (policy : ToolPolicy)

/-- A tool behind the policy. -/
def port (t : FileTree ByteArray) (call : Call) : Except PyError PyVal × FileTree ByteArray :=
  let inner (request : ToolRequest) := (FsTool.execute process t request call.denial call.tool).1
  let (answer,reached) := SafeToolPort.execute jail policy inner call.request
  (answer,reached.foldl (fun t request => (FsTool.execute process t request call.denial call.tool).2) t)

/-- Calls in order: what they answer, and the files after them. -/
def serve : FileTree ByteArray → List Call → List (Except PyError PyVal) × FileTree ByteArray
  | t,[] => ([],t)
  | t,call :: calls =>
    let (answer,t) := port process jail policy t call
    let (answers,t) := serve t calls
    (answer :: answers,t)

end

/-! ### Where a call leads -/

section
variable {process : Process} {t u : FileTree ByteArray} {w p q : List String}

/-- The workspace is at this path, and no loop of links is on the way there. -/
def Housed (process : Process) (t : FileTree ByteArray) (w : List String) : Prop :=
  t.resolution (below process.cwd process.AGENT_WORKSPACE_DIR) = .real w

/-- The path of a call leads here, in the workspace or not, without a loop. -/
def Leads (t : FileTree ByteArray) (w : List String) (call : Call) (p : List String) : Prop :=
  t.resolution (below w call.arg.text) = .real p

def Straight (t : FileTree ByteArray) (w : List String) (call : Call) : Prop := ∃ p, Leads t w call p

instance : Decidable (Housed process t w) := inferInstanceAs (Decidable (_ = _))
instance (call : Call) : Decidable (Leads t w call p) := inferInstanceAs (Decidable (_ = _))

theorem Housed.same (housed : Housed process t w) (same : SameLinks t u) : Housed process u w :=
  (resolution_same same _).symm.trans housed

theorem Leads.same {call : Call} (leads : Leads t w call p) (same : SameLinks t u) : Leads u w call p :=
  (resolution_same same _).symm.trans leads

theorem Straight.same {call : Call} (straight : Straight t w call) (same : SameLinks t u) : Straight u w call :=
  straight.imp fun _ leads => leads.same same

/-- What the jail says of an argument that leads to a path. -/
def passage (w : List String) (v : PyVal) (p : List String) : Except PyError (List String) := do
  let raw_path ← strOf v
  _reject_foreign_path_syntax raw_path
  if Char.ofNat 0 ∈ raw_path.toList then .error (.ValueError "embedded null byte") else
  if w <+: p then .ok p else .error (sandboxError ("Path is outside workspace: " ++ raw_path))

/-- Without a loop the jail looks at the argument and at where it leads, and at nothing else. -/
theorem place_passage {v : PyVal} (housed : Housed process t w) (leads : t.resolution (below w v.text) = .real p) :
    placeOf process t v = passage w v p := by
  have home : workspace_dir process t = .ok w := by
    unfold workspace_dir resolved
    rw [show t.resolution (below process.cwd process.AGENT_WORKSPACE_DIR) = .real w from housed]
  have here : resolved t (below w v.text) = .ok p := by
    unfold resolved
    rw [leads]
  unfold placeOf passage strOf resolve_in_workspace
  split
  · rw [home]
    show ( _reject_foreign_path_syntax v.text >>= fun _ => _) = _
    rw [here]
    rfl
  · rfl

theorem passage_inside {v : PyVal} (passed : passage w v p = .ok q) : q = p ∧ w <+: p := by
  obtain ⟨raw_path,-,passed⟩ := Conversions.bind_ok_iff.mp passed
  obtain ⟨-,-,passed⟩ := Conversions.bind_ok_iff.mp passed
  split_ifs at passed with null inside
  exact ⟨(Except.ok.inj passed).symm,inside⟩

/-! ### What a call changes -/

/-- What a tool leaves behind: the files as they were, directories above the path, or the file as well. -/
inductive Left (t : FileTree ByteArray) (p : List String) : FileTree ByteArray → Prop where
  | same : Left t p t
  | above {made : FileTree ByteArray} {q : List String} (before : q <+: p.dropLast) (clear : Clear t q) (built : Made t q made) :
      Left t p made
  | written {made : FileTree ByteArray} (bytes : ByteArray) (clear : Clear t p.dropLast) (built : Made t p.dropLast made)
    (free : made.isDir p.dropLast = true ∧ made.isDir p = false) : Left t p (made.set p (.file bytes) free)

/-- The outcomes of a file that is to be written to a path in the workspace. -/
inductive Filed (t : FileTree ByteArray) (p : List String) (bytes : ByteArray) (answer : Except PyError PyVal) :
    Except PyError PyVal × FileTree ByteArray → Prop where
  | failed {errno : Errno} {place : List String} {after : FileTree ByteArray} (left : Left t p after)
    (blocked : ¬ Clear t p.dropLast ∨ t.isDir p = true) : Filed t p bytes answer (.error (osError errno place),after)
  | written {made : FileTree ByteArray} (clear : Clear t p.dropLast) (built : Made t p.dropLast made)
    (free : made.isDir p.dropLast = true ∧ made.isDir p = false) (vacant : t.isDir p = false) :
    Filed t p bytes answer (answer,made.set p (.file bytes) free)

theorem above_reverse (p : List String) : p.dropLast.reverse.reverse = p.dropLast := List.reverse_reverse _

/-- The directories above a path do not make it one, unless it is the root. -/
theorem made_isDir {made : FileTree ByteArray} (built : Made t p.dropLast made) : made.isDir p = t.isDir p := by
  unfold FileTree.isDir
  rw [built.after]
  split
  · next before =>
    have root : p = [] := by
      by_contra some
      have length := before.length_le
      have positive := List.length_pos_of_ne_nil some
      rw [List.length_dropLast] at length
      omega
    subst root
    rfl
  · rfl

theorem filed_cases (real : Real t p) (plain : Named p) (bytes : ByteArray) (answer : Except PyError PyVal) :
    Filed t p bytes answer (filed t p bytes answer) := by
  have back := above_reverse p
  have real' := back ▸ real.part (List.dropLast_prefix p)
  have plain' := back ▸ plain.part (List.dropLast_prefix p)
  unfold filed
  rcases makeDirs_iff p.dropLast.reverse real' plain' with ⟨clear,made,ran,built⟩ | ⟨blocked,error,ran⟩
  · rw [back] at clear built
    simp only [ran]
    rcases @write_iff _ made p bytes (real.same built.links) plain with ⟨free,put⟩ | ⟨taken,error,put⟩
    · rw [put]
      exact .written clear built free (by rw [← made_isDir built]; exact free.2)
    · rw [put]
      refine .failed (.above (List.prefix_refl _) clear built) (.inr ?_)
      rw [← made_isDir built]
      exact taken.resolve_left (by rw [built.isDir]; simp)
  · rw [back] at blocked
    simp only [ran]
    exact .failed .same (.inl blocked)

theorem Filed.left {bytes : ByteArray} {answer : Except PyError PyVal} {result : Except PyError PyVal × FileTree ByteArray}
    (outcome : Filed t p bytes answer result) : Left t p result.2 := by
  cases outcome with
  | failed left blocked => exact left
  | written clear built free vacant => exact .written bytes clear built free

theorem write_left {request : ToolRequest} {denial : Option Denial}
    (passed : placeOf process t (pathArg request "") = .ok p) (real : Real t p) (plain : Named p) :
    Left t p (FsWrite.execute process t request denial).2 := by
  unfold FsWrite.execute
  rw [passed]
  rcases strOf (contentArg request) with error | content
  · exact .same
  rcases denial with _ | ⟨exc,dirs⟩ | ⟨exc,bytes⟩
  · exact (filed_cases real plain ..).left
  · have before := (List.take_prefix dirs p.dropLast).trans (List.dropLast_prefix p)
    have back : (p.dropLast.take dirs).reverse.reverse = p.dropLast.take dirs := List.reverse_reverse _
    have real' : Real t (p.dropLast.take dirs).reverse.reverse := by
      rw [back]
      exact real.part before
    have plain' : Named (p.dropLast.take dirs).reverse.reverse := by
      rw [back]
      exact plain.part before
    dsimp only
    rcases makeDirs_iff (p.dropLast.take dirs).reverse real' plain' with ⟨clear,made,ran,built⟩ | ⟨blocked,error,ran⟩
    · rw [back] at clear built
      rw [ran]
      exact .above (List.take_prefix dirs p.dropLast) clear built
    · rw [ran]
      exact .same
  · exact (filed_cases real plain ..).left

variable {jail : Jail} {policy : ToolPolicy} {call : Call}

/-- The policy stands in the way of writes alone, while it is in repair mode. -/
def Allowed (policy : ToolPolicy) (call : Call) : Prop := policy.repair_mode = true → call.tool ≠ .write

/-- What a call answers that the policy stands in the way of. -/
def blockedAnswer (call : Call) : PyVal :=
  .dict [("ok",.bool false),("tool",.str call.request.name),("policy_blocked",.bool true),
    ("policy_code",.str "repair_requires_patch_tool"),("error",.str "in repair mode a whole-file rewrite is blocked; use a patch tool"),
    ("metadata",.dict [("risk",.str "blocked")])]

theorem not_terminal (tool : FsTool) : tool.name ∉ TERMINALS := by cases tool <;> decide

theorem no_git (tool : FsTool) :
    (["git_commit","git_add","git_reset","git_checkout","git_push"].any fun m => contains m tool.name) = false := by
  cases tool <;> decide +kernel

theorem whole_file (tool : FsTool) : tool.name ∈ WHOLE_FILE_WRITES ↔ tool = .write := by cases tool <;> decide

theorem check_eq (jail : Jail) (policy : ToolPolicy) (call : Call) : policy.check jail call.request.name call.request.args =
    if policy.repair_mode ∧ call.tool = .write then
      ⟨false,"in repair mode a whole-file rewrite is blocked; use a patch tool","repair_requires_patch_tool","blocked"⟩
    else { allowed := true } := by
  unfold ToolPolicy.check
  rw [call.named,if_neg (not_terminal call.tool),no_git,if_neg (by simp)]
  simp only [whole_file]

theorem port_allowed (allowed : Allowed policy call) :
    port process jail policy t call = FsTool.execute process t call.request call.denial call.tool := by
  unfold port SafeToolPort.execute
  rw [check_eq,if_neg fun both => allowed both.1 both.2]
  rfl

theorem port_blocked (mode : policy.repair_mode = true) (writes : call.tool = .write) :
    port process jail policy t call = (.ok (blockedAnswer call),t) := by
  unfold port SafeToolPort.execute
  rw [check_eq,if_pos ⟨mode,writes⟩]
  rfl

theorem allowed_or (policy : ToolPolicy) (call : Call) : Allowed policy call ∨ (policy.repair_mode = true ∧ call.tool = .write) := by
  unfold Allowed
  by_cases mode : policy.repair_mode = true <;> by_cases writes : call.tool = .write <;> simp [mode,writes]

theorem arg_write (writes : call.tool = .write) : call.arg = pathArg call.request "" := by
  unfold Call.arg
  rw [writes,if_neg (by decide)]

variable (jail policy)

/-- A call leaves the files as they are, or it is a write to a path in the workspace. -/
theorem port_left (housed : Housed process t w) (leads : Leads t w call p) : (port process jail policy t call).2 = t ∨
    (w <+: p ∧ call.tool = .write ∧ Left t p (port process jail policy t call).2) := by
  rcases allowed_or policy call with allowed | ⟨mode,writes⟩
  · rw [port_allowed allowed]
    cases kind : call.tool with
    | read => exact .inl rfl
    | list => exact .inl rfl
    | write =>
      unfold Leads at leads
      rw [arg_write kind] at leads
      have passage := place_passage housed leads
      cases passed : placeOf process t (pathArg call.request "") with
      | error error =>
        refine .inl ?_
        show (FsWrite.execute process t call.request call.denial).2 = t
        unfold FsWrite.execute
        rw [passed]
      | ok path =>
        obtain ⟨rfl,inside⟩ := passage_inside (passage ▸ passed)
        obtain ⟨real,plain⟩ := resolution_real leads
        exact .inr ⟨inside,rfl,write_left passed real plain⟩
  · rw [port_blocked mode writes]
    exact .inl rfl

/-! ### Nothing outside is changed -/

/-- All that differs lies in the workspace, but for directories above it that were missing. -/
structure Confined (w : List String) (t t' : FileTree ByteArray) : Prop where
  links : SameLinks t t'
  outside : ∀ q, ¬ w <+: q → t'.at q = t.at q ∨ (q <+: w ∧ t.at q = none ∧ t'.at q = some .dir)

theorem confined_refl (w : List String) (t : FileTree ByteArray) : Confined w t t := ⟨fun _ => rfl,fun _ _ => .inl rfl⟩

theorem Confined.trans {t' t'' : FileTree ByteArray} (first : Confined w t t') (second : Confined w t' t'') : Confined w t t'' := by
  refine ⟨fun q => (first.links q).trans (second.links q),fun q apart => ?_⟩
  rcases first.outside q apart with same | ⟨above,gone,made⟩
  · rcases second.outside q apart with same' | ⟨above,gone,made⟩
    · exact .inl (same'.trans same)
    · exact .inr ⟨above,same ▸ gone,made⟩
  · rcases second.outside q apart with same' | ⟨-,gone,-⟩
    · exact .inr ⟨above,gone,same'.trans made⟩
    · rw [made] at gone
      cases gone

theorem confined_made {made : FileTree ByteArray} (inside : w <+: p) (less : q <+: p.dropLast) (clear : Clear t q)
    (built : Made t q made) : Confined w t made := by
  refine ⟨built.links,fun r apart => ?_⟩
  rw [built.after]
  split
  · next before =>
    rcases clear r before with gone | dir
    · have whole := before.trans (less.trans (List.dropLast_prefix p))
      exact .inr ⟨(List.prefix_or_prefix_of_prefix whole inside).resolve_right apart,gone,rfl⟩
    · exact .inl dir.symm
  · exact .inl rfl

theorem left_confined {after : FileTree ByteArray} (inside : w <+: p) (real : Real t p) (left : Left t p after) :
    Confined w t after := by
  cases left with
  | same => exact confined_refl w t
  | above before clear built => exact confined_made inside before clear built
  | written bytes clear built free =>
    refine (confined_made inside (List.prefix_refl _) clear built).trans ⟨?_,fun q apart => .inl ?_⟩
    · exact set_links ((built.links p).symm.trans (real p (List.prefix_refl p))) fun target => by simp
    · rw [at_set,if_neg]
      rintro rfl
      exact apart inside

theorem port_confined (housed : Housed process t w) (straight : Straight t w call) :
    Confined w t (port process jail policy t call).2 := by
  obtain ⟨p,leads⟩ := straight
  rcases port_left jail policy housed leads with same | ⟨inside,-,left⟩
  · rw [same]
    exact confined_refl w t
  · exact left_confined inside (resolution_real leads).1 left

theorem serve_confined {calls : List Call} (housed : Housed process t w) (straight : ∀ call ∈ calls, Straight t w call) :
    Confined w t (serve process jail policy t calls).2 := by
  induction calls generalizing t with
  | nil => exact confined_refl w t
  | cons call calls ih =>
    obtain ⟨first,others⟩ := List.forall_mem_cons.mp straight
    have step := port_confined jail policy housed first
    exact step.trans (ih (housed.same step.links) fun other member => (others other member).same step.links)

/-! ### Nothing outside is shown -/

/-- Two trees with the same links and the same files in the workspace and above it. -/
structure SameView (w : List String) (t u : FileTree ByteArray) : Prop where
  links : SameLinks t u
  view : ∀ q, q <+: w ∨ w <+: q → t.at q = u.at q

theorem SameView.alike (same : SameView w t u) (inside : w <+: p) : Alike p t u :=
  ⟨same.links,fun q before => same.view q (List.prefix_or_prefix_of_prefix before inside)⟩

theorem sorted_perm {names names' : List String} (perm : names.Perm names') : sortedTexts names = sortedTexts names' := by
  unfold sortedTexts
  refine List.Perm.eq_of_pairwise' (List.pairwise_insertionSort _ _) (List.pairwise_insertionSort _ _) ?_
  exact (List.perm_insertionSort _ _).trans (perm.trans (List.perm_insertionSort _ _).symm)

theorem place_same (same : SameView w t u) (housed : Housed process t w) (leads : Leads t w call p) :
    placeOf process t call.arg = placeOf process u call.arg := by
  rw [place_passage housed leads,place_passage (housed.same same.links) (leads.same same.links)]

theorem read_same (same : SameView w t u) (housed : Housed process t w) (leads : Leads t w call p)
    (kind : call.arg = pathArg call.request "") : FsRead.execute process t call.request call.denial =
      FsRead.execute process u call.request call.denial := by
  have passage := place_passage housed leads
  have again := place_same same housed leads
  rw [kind] at passage again
  unfold FsRead.execute
  rw [← again]
  cases passed : placeOf process t (pathArg call.request "") with
  | error error => rfl
  | ok path =>
    obtain ⟨rfl,inside⟩ := passage_inside (passage ▸ passed)
    obtain ⟨real,plain⟩ := resolution_real leads
    simp only [stat_alike (same.alike inside) real plain]

theorem list_same (same : SameView w t u) (housed : Housed process t w) (leads : Leads t w call p)
    (kind : call.arg = pathArg call.request ".") : FsList.execute process t call.request call.denial =
      FsList.execute process u call.request call.denial := by
  have passage := place_passage housed leads
  have again := place_same same housed leads
  rw [kind] at passage again
  unfold FsList.execute
  rw [← again]
  cases passed : placeOf process t (pathArg call.request ".") with
  | error error => rfl
  | ok path =>
    obtain ⟨rfl,inside⟩ := passage_inside (passage ▸ passed)
    obtain ⟨real,plain⟩ := resolution_real leads
    have children : ∀ name, t.at (path ++ [name]) = u.at (path ++ [name]) := fun name =>
      same.view _ (.inr (inside.trans (List.prefix_append ..)))
    simp only [← walk_alike (same.alike inside) real plain]
    rcases call.denial with _ | denial
    · cases led : t.walk path with
      | error error => rfl
      | ok place =>
        cases walk_stays real plain led
        simp only [same.view path (.inr inside),sorted_perm (names_perm children)]
    · rfl

theorem SameView.made {made made' : FileTree ByteArray} (same : SameView w t u) (built : Made t p made) (built' : Made u p made') :
    SameView w made made' := by
  refine ⟨fun q => ?_,fun q here => ?_⟩
  · rw [← built.links,← built'.links,same.links]
  · rw [built.after,built'.after,same.view q here]

theorem SameView.set {node : Node ByteArray} {free : t.isDir p.dropLast = true ∧ t.isDir p = false}
    {free' : u.isDir p.dropLast = true ∧ u.isDir p = false} (same : SameView w t u) (plain : t.linkAt p = none)
    (kind : ∀ target, node ≠ .link target) : SameView w (t.set p node free) (u.set p node free') := by
  refine ⟨fun q => ?_,fun q here => ?_⟩
  · rw [← set_links plain kind,← set_links ((same.links p).symm.trans plain) kind,same.links]
  · rw [at_set,at_set,same.view q here]

/-- The directories that are made on a path are made in both trees, or refused with one error. -/
theorem dirs_same (same : SameView w t u) (inside : w <+: p) (real : Real t p) (plain : Named p) (before : q <+: p) :
    (∃ made made', t.makeDirs q.reverse = .ok made ∧ u.makeDirs q.reverse = .ok made' ∧ SameLinks t made ∧ SameView w made made') ∨
      ∃ error, t.makeDirs q.reverse = .error error ∧ u.makeDirs q.reverse = .error error := by
  have back : q.reverse.reverse = q := List.reverse_reverse q
  have real' := back ▸ real.part before
  have plain' := back ▸ plain.part before
  have alike := back ▸ (same.alike inside).part before
  rcases makeDirs_iff q.reverse real' plain' with ⟨clear,made,ran,built⟩ | ⟨blocked,error,ran⟩
  · rcases makeDirs_iff q.reverse (real'.same same.links) plain' with ⟨-,made',ran',built'⟩ | ⟨blocked,-⟩
    · exact .inl ⟨made,made',ran,ran',built.links,same.made built built'⟩
    · exact absurd (fun r less => alike.way r less ▸ clear r less) blocked
  · exact .inr ⟨error,ran,makeDirs_alike q.reverse alike real' plain' ran⟩

theorem filed_same (same : SameView w t u) (inside : w <+: p) (real : Real t p) (plain : Named p) (bytes : ByteArray)
    (answer : Except PyError PyVal) :
    (filed t p bytes answer).1 = (filed u p bytes answer).1 ∧ SameView w (filed t p bytes answer).2 (filed u p bytes answer).2 := by
  have above := List.dropLast_prefix p
  unfold filed
  rcases dirs_same same inside real plain above with ⟨made,made',ran,ran',links,views⟩ | ⟨error,ran,ran'⟩
  · have realMade := real.same links
    simp only [ran,ran']
    rcases @write_iff _ made p bytes realMade plain with ⟨free,put⟩ | ⟨-,error,put⟩
    · have free' : made'.isDir p.dropLast = true ∧ made'.isDir p = false := by
        rw [← (views.alike inside).isDir above,← (views.alike inside).isDir (List.prefix_refl p)]
        exact free
      rcases @write_iff _ made' p bytes (realMade.same views.links) plain with ⟨free',put'⟩ | ⟨taken,-⟩
      · simp only [put,put',true_and]
        exact views.set (realMade p (List.prefix_refl p)) fun target => by simp
      · rw [free'.1,free'.2] at taken
        simp at taken
    · simp only [put,write_alike (views.alike inside) realMade plain put,true_and]
      exact views
  · simp only [ran,ran',true_and]
    exact same

theorem write_same (same : SameView w t u) (housed : Housed process t w) (leads : Leads t w call p)
    (kind : call.arg = pathArg call.request "") :
    (FsWrite.execute process t call.request call.denial).1 = (FsWrite.execute process u call.request call.denial).1 ∧
    SameView w (FsWrite.execute process t call.request call.denial).2 (FsWrite.execute process u call.request call.denial).2 := by
  have passage := place_passage housed leads
  have again := place_same same housed leads
  rw [kind] at passage again
  unfold FsWrite.execute
  rw [← again]
  cases passed : placeOf process t (pathArg call.request "") with
  | error error => exact ⟨rfl,same⟩
  | ok path =>
    obtain ⟨rfl,inside⟩ := passage_inside (passage ▸ passed)
    obtain ⟨real,plain⟩ := resolution_real leads
    rcases strOf (contentArg call.request) with error | content
    · exact ⟨rfl,same⟩
    rcases call.denial with _ | ⟨exc,dirs⟩ | ⟨exc,bytes⟩
    · exact filed_same same inside real plain _ _
    · have before := (List.take_prefix dirs path.dropLast).trans (List.dropLast_prefix path)
      dsimp only
      rcases dirs_same same inside real plain before with ⟨made,made',ran,ran',-,views⟩ | ⟨error,ran,ran'⟩
      · rw [ran,ran']
        exact ⟨rfl,views⟩
      · rw [ran,ran']
        exact ⟨rfl,same⟩
    · exact filed_same same inside real plain _ _

theorem port_same (same : SameView w t u) (housed : Housed process t w) (straight : Straight t w call) :
    (port process jail policy t call).1 = (port process jail policy u call).1 ∧
    SameView w (port process jail policy t call).2 (port process jail policy u call).2 := by
  obtain ⟨p,leads⟩ := straight
  rcases allowed_or policy call with allowed | ⟨mode,writes⟩
  · rw [port_allowed allowed,port_allowed allowed]
    cases kind : call.tool with
    | read => exact ⟨read_same same housed leads (by unfold Call.arg; rw [kind,if_neg (by decide)]),same⟩
    | write => exact write_same same housed leads (arg_write kind)
    | list => exact ⟨list_same same housed leads (by unfold Call.arg; rw [kind,if_pos rfl]),same⟩
  · rw [port_blocked mode writes,port_blocked mode writes]
    exact ⟨rfl,same⟩

theorem serve_same {calls : List Call} (same : SameView w t u) (housed : Housed process t w)
    (straight : ∀ call ∈ calls, Straight t w call) :
    (serve process jail policy t calls).1 = (serve process jail policy u calls).1 ∧
    SameView w (serve process jail policy t calls).2 (serve process jail policy u calls).2 := by
  induction calls generalizing t u with
  | nil => exact ⟨rfl,same⟩
  | cons call calls ih =>
    obtain ⟨first,others⟩ := List.forall_mem_cons.mp straight
    obtain ⟨answers,views⟩ := port_same jail policy same housed first
    have links := (port_confined jail policy housed first).links
    obtain ⟨rest,final⟩ := ih views (housed.same links) fun other member => (others other member).same links
    exact ⟨congrArg₂ List.cons answers rest,final⟩

/-- Whatever the file tools are called with, nothing outside the workspace changes but for directories above it that
    were missing, and nothing outside shows: files that differ there alone give the same answers. -/
theorem workspace_sealed {calls : List Call} (housed : Housed process t w) (straight : ∀ call ∈ calls, Straight t w call) :
    Confined w t (serve process jail policy t calls).2 ∧
    ∀ u, SameView w t u → (serve process jail policy u calls).1 = (serve process jail policy t calls).1 ∧
      SameView w (serve process jail policy t calls).2 (serve process jail policy u calls).2 :=
  ⟨serve_confined jail policy housed straight,fun _ same =>
    (serve_same jail policy same housed straight).imp Eq.symm id⟩

/-! ### An office -/

/-- A workspace with a link into itself, one that leads out of it, and one that leads to itself. -/
def office : FileTree ByteArray where
  nodes := ⟨[(["ws"],.dir),(["ws","in"],.link ⟨true,["ws","d"]⟩),(["ws","out"],.link ⟨false,["..","safe","pin"]⟩),
    (["ws","loop"],.link ⟨false,["loop"]⟩),(["safe"],.dir),(["safe","pin"],.file "1234".toByteArray)],by decide⟩
  grounded := by decide

/-- The same office with another pin in the safe. -/
def rival : FileTree ByteArray := office.set ["safe","pin"] (.file "9876".toByteArray) (by decide)

def desk : Process := ⟨"/ws",[]⟩

def ask (tool : FsTool) (args : Fields) : Call := ⟨tool,⟨tool.name,args,none,""⟩,rfl,none⟩

theorem office_rival : SameView ["ws"] office rival := by
  refine ⟨set_links (by decide) fun target => by simp,fun q here => ?_⟩
  unfold rival
  rw [at_set,if_neg]
  rintro rfl
  revert here
  decide

def errands : List Call :=
  [ask .write [("path",.str "in/e/f.txt"),("content",.str "a\r\nb")],ask .read [("path",.str "out")],
    ask .list [("path",.str "/ws/d/e")],ask .write [("path",.str "../safe/pin")]]

theorem errands_straight : ∀ call ∈ errands, Straight office ["ws"] call := by
  intro call member
  unfold errands at member
  simp only [List.mem_cons,List.not_mem_nil,or_false] at member
  rcases member with rfl | rfl | rfl | rfl
  · exact ⟨["ws","d","e","f.txt"],by decide +kernel⟩
  · exact ⟨["safe","pin"],by decide +kernel⟩
  · exact ⟨["ws","d","e"],by decide +kernel⟩
  · exact ⟨["safe","pin"],by decide +kernel⟩

theorem office_sealed : Confined ["ws"] office (serve desk workshop {} office errands).2 ∧
    (serve desk workshop {} rival errands).1 = (serve desk workshop {} office errands).1 := by
  obtain ⟨confined,hidden⟩ := workspace_sealed workshop {} (show Housed desk office ["ws"] by decide +kernel) errands_straight
  exact ⟨confined,(hidden rival office_rival).1⟩

/-- A path through a loop gets out: the link behind it is followed after the check. -/
theorem loop_leads_out :
    (serve desk workshop {} office [ask .read [("path",.str "loop/../out")]]).1 ≠
      (serve desk workshop {} rival [ask .read [("path",.str "loop/../out")]]).1 ∧
    ¬ Confined ["ws"] office
      (serve desk workshop {} office [ask .write [("path",.str "loop/../out"),("content",.str "0000")]]).2 := by
  refine ⟨by decide +kernel,fun confined => ?_⟩
  rcases confined.outside ["safe","pin"] (by decide) with same | ⟨above,-⟩
  · exact absurd same (by decide +kernel)
  · exact absurd above (by decide)

/-! ### What is written is read -/

/-- A call that the jail lets through to a path in the workspace. -/
structure Reaches (process : Process) (t : FileTree ByteArray) (w : List String) (call : Call) (p : List String) : Prop where
  leads : Leads t w call p
  passes : passage w call.arg p = .ok p

theorem Reaches.same (reaches : Reaches process t w call p) (same : SameLinks t u) : Reaches process u w call p :=
  ⟨reaches.leads.same same,reaches.passes⟩

def note : Call := ask .write [("path",.str "in/e/f.txt"),("content",.str "a\r\nb")]
end

end HexAgent.Workspace
