import HexAgent.Schemas
import Mathlib.Data.Finset.Basic

/-!
The registry of roles: every role derives its tools from its own list, its skills
and the core tools, and a tool that a skill forbids is never among them. The
supervisor reads the roles as its catalog and by department.
-/
namespace HexAgent.Roles
open HexAgent.Values Dicts

structure SkillSpec where
  name : String
  allowed_tools : List String := []
  forbidden_tools : List String := []
  deriving DecidableEq, Repr

/-- The skills, by their names. -/
structure SkillRegistry where
  skills : List SkillSpec := []
  unique : (skills.map SkillSpec.name).Nodup := by decide

/-- The names of a registry in an error text. -/
def knownNames (names : List String) : String := orText (join ", " (sortedTexts names)) "(none)"

def SkillRegistry.get (registry : SkillRegistry) (name : String) : Except PyError SkillSpec :=
  match registry.skills.find? fun skill => skill.name = name with
  | some skill => .ok skill
  | none => .error (.KeyError (reprText
      ("Unknown skill '" ++ name ++ "'. Known skills: " ++ knownNames (registry.skills.map SkillSpec.name))))

structure RoleSpec where
  name : String
  role : String
  department : String
  system_prompt : String
  explicit_tools : List String := []
  allowed_skills : List String := []
  deriving DecidableEq, Repr

/-- The tools that a role's skills allow and forbid, added to those collected so far. -/
def skillTools (skills : SkillRegistry) : List String → Finset String × Finset String →
    Except PyError (Finset String × Finset String)
  | [],collected => .ok collected
  | name :: rest,(union,forbidden) => do
    let skill ← skills.get name
    skillTools skills rest (union ∪ skill.allowed_tools.toFinset,forbidden ∪ skill.forbidden_tools.toFinset)

/-- The tools of a role; forbidden wins. -/
def RoleSpec.allowed_tools (spec : RoleSpec) (skills : SkillRegistry) (core_tools : Finset String) :
    Except PyError (Finset String) := do
  let (union,forbidden) ← skillTools skills spec.allowed_skills (spec.explicit_tools.toFinset ∪ core_tools,∅)
  .ok (union \ forbidden)

/-- A skill is got by its name. -/
theorem skill_get_iff {skills : SkillRegistry} {name : String} {skill : SkillSpec} :
    skills.get name = .ok skill ↔ skill ∈ skills.skills ∧ skill.name = name := by
  unfold SkillRegistry.get
  constructor
  · intro got
    cases found : skills.skills.find? fun skill => skill.name = name with
    | none => rw [found] at got; cases got
    | some other =>
      rw [found] at got
      cases got
      exact ⟨List.mem_of_find?_eq_some found,by simpa using List.find?_some found⟩
  · rintro ⟨member,rfl⟩
    cases found : skills.skills.find? fun other => other.name = skill.name with
    | none =>
      have other := List.find?_eq_none.mp found skill member
      simp at other
    | some other =>
      have named : other.name = skill.name := by simpa using List.find?_some found
      have same : other = skill :=
        List.inj_on_of_nodup_map skills.unique (List.mem_of_find?_eq_some found) member named
      rw [same]

/-- Naming a skill adds its tools. -/
theorem named_cons {skills : SkillRegistry} {skill : SkillSpec} (member : skill ∈ skills.skills) (names : List String)
    (toolsOf : SkillSpec → List String) (collected : Finset String) (tool : String) :
    (tool ∈ collected ∪ (toolsOf skill).toFinset ∨
        ∃ other ∈ skills.skills, other.name ∈ names ∧ tool ∈ toolsOf other) ↔
      tool ∈ collected ∨ ∃ other ∈ skills.skills, other.name ∈ skill.name :: names ∧ tool ∈ toolsOf other := by
  rw [Finset.mem_union,List.mem_toFinset]
  constructor
  · rintro ((earlier | here) | ⟨other,inside,later,listed⟩)
    · exact .inl earlier
    · exact .inr ⟨skill,member,List.mem_cons_self ..,here⟩
    · exact .inr ⟨other,inside,List.mem_cons_of_mem _ later,listed⟩
  · rintro (earlier | ⟨other,inside,named,listed⟩)
    · exact .inl (.inl earlier)
    · rcases List.mem_cons.mp named with same | later
      · rw [List.inj_on_of_nodup_map skills.unique inside member same] at listed
        exact .inl (.inr listed)
      · exact .inr ⟨other,inside,later,listed⟩

/-- The collected tools are the earlier ones and those of the named skills. -/
theorem mem_skillTools {skills : SkillRegistry} {names : List String} {union forbidden union' forbidden' : Finset String}
    (collected : skillTools skills names (union,forbidden) = .ok (union',forbidden')) (tool : String) :
    (tool ∈ union' ↔ tool ∈ union ∨ ∃ skill ∈ skills.skills, skill.name ∈ names ∧ tool ∈ skill.allowed_tools) ∧
      (tool ∈ forbidden' ↔
        tool ∈ forbidden ∨ ∃ skill ∈ skills.skills, skill.name ∈ names ∧ tool ∈ skill.forbidden_tools) := by
  induction names generalizing union forbidden with
  | nil => cases collected; simp
  | cons name rest ih =>
    unfold skillTools at collected
    cases got : skills.get name with
    | error error => rw [got] at collected; cases collected
    | ok skill =>
      rw [got] at collected
      obtain ⟨member,rfl⟩ := skill_get_iff.mp got
      obtain ⟨allowed,barred⟩ := ih collected
      exact ⟨allowed.trans (named_cons member rest SkillSpec.allowed_tools union tool),
        barred.trans (named_cons member rest SkillSpec.forbidden_tools forbidden tool)⟩

/-- A role has the tools of its own list, of the core and of its skills, without those that a skill of its forbids. -/
theorem mem_allowed_tools {spec : RoleSpec} {skills : SkillRegistry} {core_tools tools : Finset String}
    (derived : spec.allowed_tools skills core_tools = .ok tools) (tool : String) :
    tool ∈ tools ↔
      (tool ∈ spec.explicit_tools ∨ tool ∈ core_tools ∨
        ∃ skill ∈ skills.skills, skill.name ∈ spec.allowed_skills ∧ tool ∈ skill.allowed_tools) ∧
      ∀ skill ∈ skills.skills, skill.name ∈ spec.allowed_skills → tool ∉ skill.forbidden_tools := by
  unfold RoleSpec.allowed_tools at derived
  cases collected : skillTools skills spec.allowed_skills (spec.explicit_tools.toFinset ∪ core_tools,∅) with
  | error error => rw [collected] at derived; cases derived
  | ok pair =>
    obtain ⟨union,forbidden⟩ := pair
    rw [collected] at derived
    cases derived
    obtain ⟨allowed,barred⟩ := mem_skillTools collected tool
    rw [Finset.mem_sdiff,allowed,barred]
    simp only [Finset.mem_union,List.mem_toFinset,Finset.notMem_empty,false_or,or_assoc,not_exists,not_and]

/-- The projection of a role that the orchestrator reads. -/
structure RoleView where
  agent_id : String
  role : String
  system_prompt : String
  default_scope : Finset String
  department : String

/-- The roles, by their names. -/
structure AgentRegistry where
  roles : List RoleSpec
  unique : (roles.map RoleSpec.name).Nodup
  skills : SkillRegistry := {}
  core_tools : Finset String := ∅

namespace AgentRegistry

def names (registry : AgentRegistry) : List String := sortedTexts (registry.roles.map RoleSpec.name)

def get (registry : AgentRegistry) (name : String) : Except PyError RoleSpec :=
  match registry.roles.find? fun spec => spec.name = name with
  | some spec => .ok spec
  | none => .error (.KeyError (reprText
      ("Unknown role '" ++ name ++ "'. Known roles: " ++ knownNames (registry.roles.map RoleSpec.name))))

/-- The roles of a department; none for an unknown one. -/
def members_of (registry : AgentRegistry) (department : String) : List String :=
  sortedTexts ((registry.roles.filter fun spec => spec.department = department).map RoleSpec.name)

/-- Every department with its roles, in the order the departments first appear. -/
def departments (registry : AgentRegistry) : List (String × List String) :=
  (registry.roles.foldl (fun groups spec =>
    Dicts.put spec.department ((Dicts.get spec.department groups).getD [] ++ [spec.name]) groups) []).map
    fun group => (group.1,sortedTexts group.2)

def role_view (registry : AgentRegistry) (name : String) : Except PyError RoleView := do
  let spec ← registry.get name
  let default_scope ← spec.allowed_tools registry.skills registry.core_tools
  .ok ⟨spec.name,spec.role,spec.system_prompt,default_scope,spec.department⟩

def list_roles (registry : AgentRegistry) : Except PyError (List RoleView) := registry.names.mapM registry.role_view

theorem mem_names {registry : AgentRegistry} {name : String} :
    name ∈ registry.names ↔ ∃ spec ∈ registry.roles, spec.name = name := by
  rw [names,sortedTexts,(List.perm_insertionSort _ _).mem_iff,List.mem_map]

theorem mem_members_of {registry : AgentRegistry} {department name : String} :
    name ∈ registry.members_of department ↔
      ∃ spec ∈ registry.roles, spec.department = department ∧ spec.name = name := by
  rw [members_of,sortedTexts,(List.perm_insertionSort _ _).mem_iff,List.mem_map]
  simp [List.mem_filter,and_assoc]

theorem members_of_subset_names (registry : AgentRegistry) (department : String) :
    ∀ name ∈ registry.members_of department, name ∈ registry.names := by
  intro name member
  obtain ⟨spec,inRoles,-,named⟩ := mem_members_of.mp member
  exact mem_names.mpr ⟨spec,inRoles,named⟩

theorem role_view_agent_id {registry : AgentRegistry} {name : String} {view : RoleView}
    (viewed : registry.role_view name = .ok view) : view.agent_id = name := by
  unfold role_view get at viewed
  rcases found : registry.roles.find? (fun spec => spec.name = name) with _ | spec
  · rw [found] at viewed; cases viewed
  · rw [found] at viewed
    have named : spec.name = name := by simpa using List.find?_some found
    rcases tools : spec.allowed_tools registry.skills registry.core_tools with error | scope
    · simp [bind,Except.bind,tools] at viewed
    · simp only [bind,Except.bind,tools,Except.ok.injEq] at viewed
      rw [← viewed]; exact named

/-- Where the roles can be listed, the catalog names exactly the roles. -/
theorem list_roles_agent_ids {registry : AgentRegistry} {views : List RoleView}
    (listed : registry.list_roles = .ok views) : views.map RoleView.agent_id = registry.names := by
  unfold list_roles at listed
  generalize registry.names = names at listed
  induction names generalizing views with
  | nil => cases listed; rfl
  | cons name rest ih =>
    rw [List.mapM_cons] at listed
    rcases viewed : registry.role_view name with error | view
    · simp [bind,Except.bind,viewed] at listed
    · rcases others : rest.mapM registry.role_view with error | more
      · simp [bind,Except.bind,viewed,others] at listed
      · simp only [bind,Except.bind,viewed,others,pure,Except.pure,Except.ok.injEq] at listed
        rw [← listed,List.map_cons,ih others,role_view_agent_id viewed]

end AgentRegistry
end HexAgent.Roles
