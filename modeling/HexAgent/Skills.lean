import HexAgent.Roles
import HexAgent.Policy
import HexAgent.Events

/-!
The parser of skill files. A skill file is a frontmatter and a body of sections; the tools that
the skill allows and forbids are the bullets of two of them, which are found by a word of their
heading.
-/
namespace HexAgent.Skills
open HexAgent.Values HexAgent.Policy Dicts

/-! ### Lines and headings -/

/-- The characters at which `str.splitlines` breaks a text. -/
def isBreak (c : Char) : Bool :=
  let n := c.toNat
  (10 ≤ n && n ≤ 13) || (28 ≤ n && n ≤ 30) || n == 0x85 || n == 0x2028 || n == 0x2029

/-- The lines of a text; a carriage return before a line feed belongs to its break. -/
def lineChars : List Char → List (List Char)
  | [] => []
  | c :: rest =>
    if isBreak c then if c = '\r' ∧ rest.head? = some '\n' then lineChars rest else [] :: lineChars rest
    else match lineChars rest with
      | [] => [[c]]
      | line :: lines => (c :: line) :: lines

/-- `str.splitlines`. -/
def splitlines (s : String) : List String := (lineChars s.toList).map String.ofList

/-- The title of a heading: one to six marks, white space, and the title without the white space around it. -/
def heading (line : String) : Option String :=
  let marks := line.toList.takeWhile (· = '#')
  let rest := line.toList.dropWhile (· = '#')
  if 1 ≤ marks.length ∧ marks.length ≤ 6 ∧ rest.head?.any isSpace then some (String.ofList (stripChars rest)) else none

/-- `"\n".join(buf).strip()`. -/
def sectionText (buf : List String) : String := strip (join "\n" buf)

/-- White space and then grave accents removed at both ends, and again white space. -/
def stripItem (cs : List Char) : String :=
  let tick : Char → Bool := fun c => c = '\x60'
  String.ofList (stripChars (((stripChars cs).dropWhile tick).reverse.dropWhile tick).reverse)

/-- The items that stand for no tool. -/
def PLACEHOLDERS : List String := ["","none","(none)","n/a","-"]

section
-- `str.lower`; nothing is assumed about it
variable (lower : String → String)

/-! ### Sections -/

/-- The loop over the lines: the sections so far, the heading of the open one and its lines. -/
structure Scan where
  sections : List (String × String) := []
  current : Option String := none
  buf : List String := []

/-- The sections with the open one. -/
def Scan.closed (scan : Scan) : List (String × String) :=
  match scan.current with
  | some current => put current (sectionText scan.buf) scan.sections
  | none => scan.sections

def Scan.line (scan : Scan) (line : String) : Scan :=
  match heading line with
  | some title => { sections := scan.closed, current := some (lower title), buf := [] }
  | none => if scan.current.isSome then { scan with buf := scan.buf ++ [line] } else scan

def _split_sections (body : String) : List (String × String) :=
  ((splitlines body).foldl (Scan.line lower) {}).closed

def _find_section (sections : List (String × String)) (needle : String) : String :=
  match sections.find? fun entry => contains needle entry.1 with
  | some (_,text) => text
  | none => ""

/-- The item of a bulleted line, unless it is a placeholder. -/
def bullet (line : String) : Option String :=
  match stripChars line.toList with
  | [] => none
  | mark :: rest =>
    if mark ∈ ['-','*','+'] ∧ lower (stripItem rest) ∉ PLACEHOLDERS then some (stripItem rest) else none

def _bullets (text : String) : List String := (splitlines text).filterMap (bullet lower)

/-! ### Files -/

/-- The pieces of a text between the separators. -/
def splitAny (seps : List Char) : List Char → List (List Char)
  | [] => [[]]
  | c :: rest =>
    if c ∈ seps then [] :: splitAny seps rest
    else match splitAny seps rest with
      | [] => [[c]]
      | piece :: pieces => (c :: piece) :: pieces

def _triggers (value : PyVal) : Except PyError (List String) :=
  let trimmed (parts : List PyVal) := (parts.map fun part => strip part.text).filter (· ≠ "")
  match value with
  | .null => .ok []
  | .str s => .ok (trimmed ((splitAny [',','\n'] s.toList).map fun part => .str (String.ofList part)))
  | value => do
    let parts ← value.iter
    .ok (trimmed parts)

/-- The texts before the first line break that `---` follows, and after that `---`. -/
def untilDashes : List Char → Option (List Char × List Char)
  | [] => none
  | c :: rest =>
    if ['\n','-','-','-'] <+: c :: rest then some ([],rest.drop 3)
    else (untilDashes rest).map fun (inside,after) => (c :: inside,after)

/-- The frontmatter and the body after the opening `---`. The frontmatter starts after the last line break
    of the white space from which `---` can be reached. -/
def frontmatter (rest : List Char) : Option (List Char × List Char) :=
  let blank := (rest.takeWhile isSpace).length
  let starts := ((List.range blank).filter fun i => rest[i]? = some '\n').reverse
  starts.findSome? fun i => untilDashes (rest.drop (i + 1))

/-- A skill with its texts: its name, its tools, and the parts that only a selected skill shows. -/
structure SkillSpec extends Roles.SkillSpec where
  description : String
  triggers : List String
  steps_md : String
  report_md : String
  deriving DecidableEq

-- the loader of YAML texts
variable (safe_load : String → Except PyError PyVal)

def _split_frontmatter (text : String) : Except PyError (Fields × String) :=
  let chars := text.toList.dropWhile (· = '\ufeff')
  match (if ['-','-','-'] <+: chars then frontmatter (chars.drop 3) else none) with
  | none => .error (.ValueError "SKILL.md is missing a '---' YAML frontmatter block.")
  | some (inside,after) => do
    let data ← safe_load (String.ofList inside)
    match data.orElse (.dict []) with
    | .dict fields => .ok (fields,String.ofList (after.dropWhile isSpace))
    | _ => .error (.ValueError "SKILL.md frontmatter must be a YAML mapping.")

def parse_skill (text : String) : Except PyError SkillSpec := do
  let (fm,body) ← _split_frontmatter safe_load text
  let name := strip ((fm.get "name").orElse (.str "")).text
  let description := strip ((fm.get "description").orElse (.str "")).text
  if name = "" then .error (.ValueError "SKILL.md frontmatter is missing required field 'name'.")
  else if description = "" then
    .error (.ValueError ("SKILL.md '" ++ name ++ "' is missing required field 'description'."))
  else do
    let sections := _split_sections lower body
    let triggers ← _triggers (fm.get "triggers")
    .ok {
      name, description, triggers,
      allowed_tools := _bullets lower (_find_section sections "allowed"),
      forbidden_tools := _bullets lower (_find_section sections "forbidden"),
      steps_md := _find_section sections "steps",
      report_md := _find_section sections "report" }

end

/-! ### The document -/

/-- A section of a body: its title and its lines. -/
structure Block where
  title : String
  lines : List String
  deriving DecidableEq

/-- The sections of a document, each with the lines up to the next heading. -/
def blocks : List String → List Block
  | [] => []
  | line :: rest =>
    match heading line with
    | some title => ⟨title,rest.takeWhile fun line => heading line = none⟩ :: blocks rest
    | none => blocks rest

section
variable (lower : String → String)

/-- The section as the parser keeps it. -/
def Block.entry (b : Block) : String × String := (lower b.title,sectionText b.lines)

/-- The tools that the section lists. -/
def Block.bullets (b : Block) : List String := _bullets lower (sectionText b.lines)

/-- The title starts with the word, in any case. -/
def Block.Starts (word : String) (b : Block) : Prop := word.toList <+: (lower b.title).toList

instance (word : String) : DecidablePred (Block.Starts lower word) := fun b =>
  inferInstanceAs (Decidable (word.toList <+: (lower b.title).toList))

/-- A document with one section that starts with the first word and one that starts with the second. -/
structure Contract (document : List Block) where
  allowed : Block
  forbidden : Block
  one_allowed : document.filter (fun b => b.Starts lower "allowed") = [allowed]
  one_forbidden : document.filter (fun b => b.Starts lower "forbidden") = [forbidden]

/-- The section that a word reaches: the last one under the first title that has the word in it. -/
def reached (word : String) (document : List Block) : Option Block := do
  let first ← document.find? fun b => contains word (lower b.title)
  document.reverse.find? fun b => lower b.title = lower first.title

/-- The word reaches the section, or another one that lists the same tools. -/
def Reaches (word : String) (document : List Block) (b : Block) : Prop :=
  ∀ other ∈ reached lower word document, other.bullets lower = b.bullets lower

end

section
variable {lower : String → String}

/-- The loop collects the sections of the document after those that it has. -/
theorem scan_closed (scan : Scan) (lines : List String) :
    (lines.foldl (Scan.line lower) scan).closed =
      merge ({ scan with buf := scan.buf ++ lines.takeWhile fun line => heading line = none } : Scan).closed
        ((blocks lines).map (Block.entry lower)) := by
  induction lines generalizing scan with
  | nil => simp [blocks,merge]
  | cons line rest ih =>
    rw [List.foldl_cons,ih]
    cases titled : heading line with
    | some title => simp [Scan.line,blocks,titled,merge,Scan.closed,Block.entry]
    | none =>
      obtain ⟨sections,current,buf⟩ := scan
      cases current with
      | none => simp [Scan.line,blocks,titled,Scan.closed]
      | some current => simp [Scan.line,blocks,titled,Scan.closed]

theorem split_sections_eq (body : String) :
    _split_sections lower body = merge [] ((blocks (splitlines body)).map (Block.entry lower)) := by
  unfold _split_sections
  rw [scan_closed]
  rfl

/-- A word finds the section that it reaches. -/
theorem find_reached (body word : String) :
    (_split_sections lower body).find? (fun entry => contains word entry.1) =
      (reached lower word (blocks (splitlines body))).map (Block.entry lower) := by
  rw [split_sections_eq,find_merge (contains word),← List.map_reverse,List.find?_map]
  unfold reached
  cases found : (blocks (splitlines body)).find? fun b => contains word (lower b.title) with
  | none => simp [Function.comp_def,Block.entry,found]
  | some first =>
    simp only [Function.comp_def,Block.entry,found,Option.map_some,Option.bind_some,Option.bind_eq_bind]
    exact List.find?_map ..

/-- A word in a title reaches a section. -/
theorem reached_isSome {document : List Block} {word : String} {b : Block} (inside : b ∈ document)
    (mentions : contains word (lower b.title) = true) : (reached lower word document).isSome := by
  obtain ⟨first,found⟩ : ∃ first, document.find? (fun b => contains word (lower b.title)) = some first := by
    rw [← Option.isSome_iff_exists,List.find?_isSome]
    exact ⟨b,inside,mentions⟩
  have member := List.mem_reverse.mpr (List.mem_of_find?_eq_some found)
  simp only [reached,found,Option.bind_eq_bind,Option.bind_some,List.find?_isSome]
  exact ⟨first,member,by simp⟩

/-- What the one section of a word is like. -/
theorem named_spec {document : List Block} {word : String} {b : Block}
    (named : document.filter (fun b => b.Starts lower word) = [b]) :
    b ∈ document ∧ contains word (lower b.title) = true ∧
      ∀ other ∈ document, lower other.title = lower b.title → other = b := by
  have member : b ∈ document.filter fun b => b.Starts lower word := by rw [named]; exact List.mem_cons_self ..
  obtain ⟨inside,starts⟩ := List.mem_filter.mp member
  have begins : Block.Starts lower word b := of_decide_eq_true starts
  refine ⟨inside,decide_eq_true begins.isInfix,fun other present same => ?_⟩
  have also : Block.Starts lower word other := by
    show word.toList <+: (lower other.title).toList
    rw [same]
    exact begins
  have chosen : other ∈ document.filter fun b => b.Starts lower word :=
    List.mem_filter.mpr ⟨present,decide_eq_true also⟩
  rw [named] at chosen
  exact List.mem_singleton.mp chosen

/-- The parser lists the tools of the section exactly when the word reaches it. -/
theorem bullets_found_iff {body word : String} {b : Block}
    (named : (blocks (splitlines body)).filter (fun b => b.Starts lower word) = [b]) :
    _bullets lower (_find_section (_split_sections lower body) word) = b.bullets lower ↔
      Reaches lower word (blocks (splitlines body)) b := by
  obtain ⟨inside,mentions,-⟩ := named_spec named
  obtain ⟨other,hit⟩ := Option.isSome_iff_exists.mp (reached_isSome inside mentions)
  have found : _find_section (_split_sections lower body) word = sectionText other.lines := by
    unfold _find_section
    rw [find_reached,hit]
    rfl
  rw [found,Reaches,hit]
  simp [Block.bullets]

/-- The word reaches the section when no title before it has the word in it. -/
theorem reaches_of_first {document before after : List Block} {word : String} {b : Block}
    (placed : document = before ++ b :: after) (alone : ∀ other ∈ before, contains word (lower other.title) = false)
    (named : document.filter (fun b => b.Starts lower word) = [b]) : Reaches lower word document b := by
  obtain ⟨-,mentions,only⟩ := named_spec named
  have first : document.find? (fun b => contains word (lower b.title)) = some b := by
    rw [placed,List.find?_append,List.find?_eq_none.mpr (fun other early => by simp [alone other early])]
    simp [mentions]
  rintro other hit
  simp only [reached,first,Option.bind_eq_bind,Option.bind_some,Option.mem_def] at hit
  have same : lower other.title = lower b.title := by simpa using List.find?_some hit
  rw [only other (List.mem_reverse.mp (List.mem_of_find?_eq_some hit)) same]

end

/-! ### Files and roles -/

section
variable (lower : String → String) (safe_load : String → Except PyError PyVal)

/-- A skill file that is read, with one section of allowed and one of forbidden tools. -/
structure File where
  text : String
  fields : Fields
  body : String
  skill : SkillSpec
  opened : _split_frontmatter safe_load text = .ok (fields,body)
  parsed : parse_skill lower safe_load text = .ok skill
  contract : Contract lower (blocks (splitlines body))

variable {lower safe_load}

/-- The tools that the section of allowed tools lists. -/
def File.allowed (file : File lower safe_load) : List String := file.contract.allowed.bullets lower

/-- The tools that the section of forbidden tools lists. -/
def File.forbidden (file : File lower safe_load) : List String := file.contract.forbidden.bullets lower

/-- The skill allows and forbids what the two sections list. -/
def File.Exact (file : File lower safe_load) : Prop :=
  file.skill.allowed_tools = file.allowed ∧ file.skill.forbidden_tools = file.forbidden

/-- Each of the two words reaches its section. -/
def File.Clear (file : File lower safe_load) : Prop :=
  Reaches lower "allowed" (blocks (splitlines file.body)) file.contract.allowed ∧
    Reaches lower "forbidden" (blocks (splitlines file.body)) file.contract.forbidden

/-- The tools of a skill are the bullets of the sections that the two words find. -/
theorem parsed_tools {text body : String} {fields : Fields} {skill : SkillSpec}
    (opened : _split_frontmatter safe_load text = .ok (fields,body))
    (parsed : parse_skill lower safe_load text = .ok skill) :
    skill.allowed_tools = _bullets lower (_find_section (_split_sections lower body) "allowed") ∧
      skill.forbidden_tools = _bullets lower (_find_section (_split_sections lower body) "forbidden") := by
  unfold parse_skill at parsed
  rw [opened] at parsed
  simp only [bind,Except.bind] at parsed
  split_ifs at parsed
  cases triggers : _triggers (fields.get "triggers") with
  | error error => rw [triggers] at parsed; cases parsed
  | ok found =>
    rw [triggers] at parsed
    simp only [Except.ok.injEq] at parsed
    rw [← parsed]
    simp only [and_self]

/-- A file is read exactly as its sections have it if and only if each word reaches its section. -/
theorem file_exact_iff (file : File lower safe_load) : file.Exact ↔ file.Clear := by
  obtain ⟨allowed,forbidden⟩ := parsed_tools file.opened file.parsed
  unfold File.Exact File.Clear File.allowed File.forbidden
  rw [allowed,forbidden,bullets_found_iff file.contract.one_allowed,bullets_found_iff file.contract.one_forbidden]

variable (lower safe_load)

/-- Skill files with distinct names. -/
structure Library where
  files : List (File lower safe_load)
  unique : (files.map fun file => file.skill.name).Nodup

variable {lower safe_load}

def Library.registry (library : Library lower safe_load) : Roles.SkillRegistry where
  skills := library.files.map fun file => file.skill.toSkillSpec
  unique := by
    rw [List.map_map]
    exact library.unique

/-- A file is read as its sections have it if and only if each word reaches its section; and a role of skills that are
    all read so has, next to its own tools and the core tools, those that the sections of allowed tools list, without
    those that the sections of forbidden tools list. -/
theorem contract_exact_iff :
    (∀ file : File lower safe_load, file.Exact ↔ file.Clear) ∧
      ∀ (library : Library lower safe_load) (role : Roles.RoleSpec) (core_tools tools : Finset String),
        role.allowed_tools library.registry core_tools = .ok tools →
        (∀ file ∈ library.files, file.skill.name ∈ role.allowed_skills → file.Clear) →
        ∀ tool, tool ∈ tools ↔
          (tool ∈ role.explicit_tools ∨ tool ∈ core_tools ∨
            ∃ file ∈ library.files, file.skill.name ∈ role.allowed_skills ∧ tool ∈ file.allowed) ∧
          ∀ file ∈ library.files, file.skill.name ∈ role.allowed_skills → tool ∉ file.forbidden := by
  refine ⟨file_exact_iff,fun library role core_tools tools derived clear tool => ?_⟩
  have granted : (∃ skill ∈ library.registry.skills, skill.name ∈ role.allowed_skills ∧ tool ∈ skill.allowed_tools) ↔
      ∃ file ∈ library.files, file.skill.name ∈ role.allowed_skills ∧ tool ∈ file.allowed := by
    constructor
    · rintro ⟨skill,member,named,listed⟩
      obtain ⟨file,inside,rfl⟩ := List.mem_map.mp member
      exact ⟨file,inside,named,((file_exact_iff file).mpr (clear file inside named)).1 ▸ listed⟩
    · rintro ⟨file,inside,named,listed⟩
      exact ⟨_,List.mem_map_of_mem inside,named,((file_exact_iff file).mpr (clear file inside named)).1 ▸ listed⟩
  have barred : (∀ skill ∈ library.registry.skills, skill.name ∈ role.allowed_skills → tool ∉ skill.forbidden_tools) ↔
      ∀ file ∈ library.files, file.skill.name ∈ role.allowed_skills → tool ∉ file.forbidden := by
    constructor
    · intro free file inside named listed
      exact free _ (List.mem_map_of_mem inside) named (((file_exact_iff file).mpr (clear file inside named)).2 ▸ listed)
    · intro free skill member named listed
      obtain ⟨file,inside,rfl⟩ := List.mem_map.mp member
      exact free file inside named (((file_exact_iff file).mpr (clear file inside named)).2 ▸ listed)
  rw [Roles.mem_allowed_tools derived,granted,barred]

end

/-! ### Two files -/

/-- The fields of the frontmatter of the files below. -/
def demoFields : Fields := [("name",.str "demo"),("description",.str "Demo.")]

/-- The loader on that frontmatter. -/
def loadDemo (_text : String) : Except PyError PyVal := .ok (.dict demoFields)

/-- A body with the two sections of a contract. -/
def plainBody : String := "## Allowed\n- fs_read\n## Forbidden\n- fs_write\n"

/-- A body whose first section lists what is not allowed. -/
def disallowedBody : String :=
  "## Disallowed\n- fs_edit\n## Allowed\n- fs_read\n## Forbidden\n- fs_write\n"

/-- The file with this body. -/
def demoText (body : String) : String := "---\nname: demo\ndescription: Demo.\n---\n" ++ body

def plainSkill : SkillSpec := ⟨⟨"demo",["fs_read"],["fs_write"]⟩,"Demo.",[],"",""⟩
def disallowedSkill : SkillSpec := ⟨⟨"demo",["fs_edit"],["fs_write"]⟩,"Demo.",[],"",""⟩

/-- What the parser reads of the two files. -/
theorem demo_read :
    (_split_frontmatter loadDemo (demoText plainBody) = .ok (demoFields,plainBody) ∧
        parse_skill Events.lower loadDemo (demoText plainBody) = .ok plainSkill) ∧
      _split_frontmatter loadDemo (demoText disallowedBody) = .ok (demoFields,disallowedBody) ∧
        parse_skill Events.lower loadDemo (demoText disallowedBody) = .ok disallowedSkill := by
  decide +kernel

/-- The sections of the two documents. -/
theorem demo_blocks :
    blocks (splitlines plainBody) = [⟨"Allowed",["- fs_read"]⟩,⟨"Forbidden",["- fs_write"]⟩] ∧
      blocks (splitlines disallowedBody) =
        [⟨"Disallowed",["- fs_edit"]⟩,⟨"Allowed",["- fs_read"]⟩,⟨"Forbidden",["- fs_write"]⟩] := by
  decide +kernel

theorem demo_lowered :
    Events.lower "Allowed" = "allowed" ∧ Events.lower "Forbidden" = "forbidden" ∧
      Events.lower "Disallowed" = "disallowed" := by
  decide +kernel

/-- Each of the two documents has one section of either kind. -/
theorem one_of_each (word : String) (wanted : word = "allowed" ∨ word = "forbidden") :
    ∀ document ∈ [blocks (splitlines plainBody),blocks (splitlines disallowedBody)],
      document.filter (fun b => b.Starts Events.lower word) =
        [if word = "allowed" then ⟨"Allowed",["- fs_read"]⟩ else ⟨"Forbidden",["- fs_write"]⟩] := by
  obtain ⟨allowed,forbidden,disallowed⟩ := demo_lowered
  rw [demo_blocks.1,demo_blocks.2]
  rcases wanted with rfl | rfl <;> simp [Block.Starts,allowed,forbidden,disallowed]

def plain : File Events.lower loadDemo :=
  ⟨_,_,_,_,demo_read.1.1,demo_read.1.2,⟨_,_,one_of_each "allowed" (.inl rfl) _ (List.mem_cons_self ..),
    one_of_each "forbidden" (.inr rfl) _ (List.mem_cons_self ..)⟩⟩

def disallowed : File Events.lower loadDemo :=
  ⟨_,_,_,_,demo_read.2.1,demo_read.2.2,
    ⟨_,_,one_of_each "allowed" (.inl rfl) _ (List.mem_cons_of_mem _ (List.mem_cons_self ..)),
      one_of_each "forbidden" (.inr rfl) _ (List.mem_cons_of_mem _ (List.mem_cons_self ..))⟩⟩

/-- A role with that skill and no tools of its own. -/
def reader : Roles.RoleSpec where
  name := "reader"
  role := "reader"
  department := "engineering"
  system_prompt := "Read."
  allowed_skills := ["demo"]

theorem plain_clear : plain.Clear := by
  have first : blocks (splitlines plainBody) = [] ++ ⟨"Allowed",["- fs_read"]⟩ :: [⟨"Forbidden",["- fs_write"]⟩] :=
    demo_blocks.1
  have second : blocks (splitlines plainBody) = [⟨"Allowed",["- fs_read"]⟩] ++ ⟨"Forbidden",["- fs_write"]⟩ :: [] :=
    demo_blocks.1
  exact ⟨reaches_of_first first (by simp) plain.contract.one_allowed,
    reaches_of_first second (by decide +kernel) plain.contract.one_forbidden⟩

def library (file : File Events.lower loadDemo) : Library Events.lower loadDemo := ⟨[file],List.nodup_singleton _⟩

theorem plain_derived : reader.allowed_tools (library plain).registry ∅ = .ok {"fs_read"} := by
  decide +kernel

/-- The skill of a plain file has the tools of its sections, and the role's one tool is not forbidden. -/
theorem plain_exact : plain.Exact ∧ "fs_read" ∉ plain.forbidden := by
  refine ⟨(contract_exact_iff.1 plain).mpr plain_clear,?_⟩
  have granted := contract_exact_iff.2 (library plain) reader ∅ {"fs_read"} plain_derived
    (fun file inside _ => (List.mem_singleton.mp inside) ▸ plain_clear) "fs_read"
  exact (granted.mp (Finset.mem_singleton_self _)).2 plain (List.mem_singleton_self _) (by decide)

/-- The tools that are not allowed become the tools of the role. -/
theorem disallowed_granted :
    ¬ disallowed.Exact ∧ "fs_edit" ∉ disallowed.allowed ∧
      reader.allowed_tools (library disallowed).registry ∅ = .ok {"fs_edit"} := by
  have listed : disallowed.allowed = ["fs_read"] := by decide +kernel
  refine ⟨fun read => ?_,?_,by decide +kernel⟩
  · have same : ["fs_edit"] = disallowed.allowed := read.1
    rw [listed] at same
    exact absurd same (by decide)
  · rw [listed]
    decide

end HexAgent.Skills
