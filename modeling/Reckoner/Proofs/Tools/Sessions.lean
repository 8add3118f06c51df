import Mathlib.Data.List.Forall2
import Reckoner.Proofs.NameMaps
import Reckoner.Proofs.Text.ByteOrder
import Reckoner.Tool.Calculation
import Reckoner.Tool.Registry

/-!
# Tools — what a session answers

A session begins with no tools.  What is registered in it, tool after tool, is all that its answers
depend on; of several tools with one name the last one counts (`lastNamed?`).  A registry `Shows`
the tools that have been registered if its names ascend, each of its tools stands under the name
that it gives itself, and a name finds the last tool of that name; registering one more tool keeps
this (`Registry.Shows.register`), and nothing else changes a registry.

**Every answer of a session, wherever it comes in it, is one that the tools registered before call
for** (`Registry.session_by_registrations`): `Answers` says which, request by request.
-/

namespace Reckoner

/-! ### What has been registered -/

/-- The tools that a request registers. -/
def Request.tools : Request → List Tool
  | .register tools => tools
  | .execute ..     => []
  | .names          => []
  | .has _          => []
  | .definitions    => []

/-- The tools that some requests register, one after another. -/
def registered (requests : List Request) : List Tool :=
  requests.flatMap Request.tools

/-- Of some tools, the last one with a name. -/
def lastNamed? (tools : List Tool) (name : String) : Option Tool :=
  tools.reverse.find? (·.name = name)

theorem lastNamed?_append_singleton (tools : List Tool) (tool : Tool) (name : String) :
    lastNamed? (tools ++ [tool]) name =
      if name = tool.name then some tool else lastNamed? tools name := by
  rw [lastNamed?, List.reverse_append, List.reverse_singleton, List.singleton_append,
    List.find?_cons, lastNamed?]
  by_cases h : name = tool.name <;> simp [h, eq_comm]

/-- There is a last tool with a name exactly if there is one. -/
theorem exists_lastNamed?_iff {tools : List Tool} {name : String} :
    (∃ tool, lastNamed? tools name = some tool) ↔ ∃ tool ∈ tools, tool.name = name := by
  rw [← Option.isSome_iff_exists, lastNamed?, List.find?_isSome]
  simp

namespace Registry

/-- A registry in which these tools have been registered, as far as it can be told. -/
structure Shows (r : Registry) (tools : List Tool) : Prop where
  ascending : r.tools.Ascending
  /-- every tool stands under its name -/
  named : ∀ entry ∈ r.tools, entry.2.name = entry.1
  /-- the last tool with a name is the one that there is -/
  find? : ∀ name, r.find? name = lastNamed? tools name

theorem Shows.empty : Registry.empty.Shows [] where
  ascending := NameMap.ascending_nil
  named := nofun
  find? _ := rfl

/-- **Registering a tool shows it behind the others.** -/
theorem Shows.register {r : Registry} {tools : List Tool} (h : r.Shows tools) (tool : Tool) :
    (r.register tool).Shows (tools ++ [tool]) where
  ascending := NameMap.ascending_insert h.ascending
  named := by
    intro entry hentry
    rcases NameMap.mem_insert hentry with rfl | hentry
    · rfl
    · exact h.named entry hentry
  find? := by
    intro name
    rw [lastNamed?_append_singleton, ← h.find?]
    exact NameMap.get?_insert h.ascending

theorem Shows.registerAll {r : Registry} {tools : List Tool} (h : r.Shows tools)
    (added : List Tool) : (r.registerAll added).Shows (tools ++ added) := by
  induction added generalizing r tools with
  | nil => rwa [List.append_nil]
  | cons tool added ih =>
      rw [List.append_cons]
      exact ih (h.register tool)

/-- The registry after some requests. -/
def afterAll (r : Registry) (requests : List Request) : Registry :=
  requests.foldl after r

/-- **A request leaves what it registers, and nothing else.** -/
theorem after_eq (r : Registry) (request : Request) :
    r.after request = r.registerAll request.tools := by
  cases request <;> rfl

theorem afterAll_eq (r : Registry) (requests : List Request) :
    r.afterAll requests = r.registerAll (registered requests) := by
  induction requests generalizing r with
  | nil => rfl
  | cons request requests ih =>
      have hcons : registered (request :: requests) = request.tools ++ registered requests :=
        List.flatMap_cons
      rw [afterAll, List.foldl_cons, ← afterAll, ih, after_eq, hcons, Registry.registerAll,
        Registry.registerAll, Registry.registerAll, List.foldl_append]

/-- **After any requests, the registry shows what they have registered.** -/
theorem shows_afterAll (requests : List Request) :
    (Registry.empty.afterAll requests).Shows (registered requests) := by
  rw [afterAll_eq]
  exact Shows.empty.registerAll (registered requests)

/-- A session goes on from the registry that its first requests have left. -/
theorem session_append (r : Registry) (before behind : List Request) :
    r.session (before ++ behind) = r.session before ++ (r.afterAll before).session behind := by
  induction before generalizing r with
  | nil => rfl
  | cons request before ih =>
      rw [List.cons_append, session, session, ih, List.cons_append]
      rfl

theorem length_session (r : Registry) (requests : List Request) :
    (r.session requests).length = requests.length := by
  induction requests generalizing r with
  | nil => rfl
  | cons request requests ih => rw [session, List.length_cons, List.length_cons, ih]

end Registry

/-! ### Answers -/

/-- A list of the names of some tools: each once, in the order of their bytes. -/
structure ListsNames (tools : List Tool) (names : List String) : Prop where
  ascending : names.Pairwise fun a b => Text.encoding a < Text.encoding b
  mem_iff : ∀ name, name ∈ names ↔ ∃ tool ∈ tools, tool.name = name

/-- A definition of a tool: an object of its description, the schema of its arguments and its name,
in the order of the members' names, and of nothing else. -/
def Tool.IsDefinedBy (tool : Tool) (definition : Json) : Prop :=
  definition = .object
    [("description", .string tool.description),
     ("inputSchema", tool.schema),
     ("name", .string tool.name)]

/-- What is answered to a request after some tools have been registered. -/
inductive Answers (tools : List Tool) : Request → Answer → Prop where
  | register {added : List Tool} {names : List String} (h : ListsNames (tools ++ added) names) :
      Answers tools (.register added) (.names names)
  | execute {name : String} {tool : Tool} (h : lastNamed? tools name = some tool)
      (arguments : Json) : Answers tools (.execute name arguments) (.reply (tool.run arguments))
  | unknown {name : String} (h : ∀ tool ∈ tools, tool.name ≠ name) (arguments : Json) :
      Answers tools (.execute name arguments) (.reply (.error (.toolNotFound name)))
  | names {names : List String} (h : ListsNames tools names) : Answers tools .names (.names names)
  | has {name : String} {has : Bool} (h : has = true ↔ ∃ tool ∈ tools, tool.name = name) :
      Answers tools (.has name) (.has has)
  /-- one definition for each name, that of the last tool with it -/
  | definitions {names : List String} {definitions : List Json} (h : ListsNames tools names)
      (hdefinitions : List.Forall₂ (fun definition name => ∃ tool,
        lastNamed? tools name = some tool ∧ tool.IsDefinedBy definition) definitions names) :
      Answers tools .definitions (.definitions definitions)

/-- What a tool is advertised as is its definition. -/
theorem Tool.isDefinedBy_definition (tool : Tool) : tool.IsDefinedBy tool.definition :=
  rfl

namespace Registry

variable {r : Registry} {tools : List Tool}

theorem Shows.mem_names_iff (h : r.Shows tools) {name : String} :
    name ∈ r.names ↔ ∃ tool ∈ tools, tool.name = name := by
  rw [names, NameMap.mem_names_iff, ← exists_lastNamed?_iff, ← h.find?]
  rfl

/-- The names are listed in the order of their bytes. -/
theorem Shows.listsNames (h : r.Shows tools) : ListsNames tools r.names where
  ascending := List.Pairwise.imp Text.encoding_lt h.ascending
  mem_iff _ := h.mem_names_iff

/-- The names are those that the tools give themselves. -/
theorem Shows.names_eq (h : r.Shows tools) : r.names = r.tools.map fun (_, tool) => tool.name :=
  List.map_congr_left fun entry hentry => (h.named entry hentry).symm

theorem Shows.has_iff (h : r.Shows tools) {name : String} :
    r.has name = true ↔ ∃ tool ∈ tools, tool.name = name := by
  rw [has, h.find?, Option.isSome_iff_exists, exists_lastNamed?_iff]

/-- The definitions are those of the last tools with their names. -/
theorem Shows.definitions (h : r.Shows tools) :
    List.Forall₂ (fun definition name => ∃ tool,
      lastNamed? tools name = some tool ∧ tool.IsDefinedBy definition) r.definitions r.names := by
  rw [Registry.definitions, names, NameMap.names, List.forall₂_map_left_iff,
    List.forall₂_map_right_iff]
  refine List.forall₂_same.mpr fun entry hentry => ⟨entry.2, ?_, entry.2.isDefinedBy_definition⟩
  rw [← h.find?]
  exact (NameMap.get?_eq_some_iff h.ascending).mpr hentry

/-- **A registry answers by the tools that it shows.** -/
theorem Shows.answers (h : r.Shows tools) (request : Request) :
    Answers tools request (r.answer request) := by
  cases request with
  | register added => exact .register (h.registerAll added).listsNames
  | execute name arguments =>
      rw [answer, execute, h.find?]
      cases hlast : lastNamed? tools name with
      | some tool => exact .execute hlast arguments
      | none =>
          refine .unknown (fun tool hmem hname => ?_) arguments
          obtain ⟨last, hsome⟩ := exists_lastNamed?_iff.mpr ⟨tool, hmem, hname⟩
          rw [hlast] at hsome
          cases hsome
  | names => exact .names h.listsNames
  | has name => exact .has h.has_iff
  | definitions => exact .definitions h.listsNames h.definitions

/-- Registering tools with different names goes in either order. -/
theorem Shows.register_comm (h : r.Shows tools) {tool other : Tool} (hne : tool.name ≠ other.name) :
    (r.register tool).register other = (r.register other).register tool := by
  unfold Registry.register
  exact congrArg Registry.mk (NameMap.insert_comm hne tool other h.ascending)

/-- **A session is answered by what has been registered in it.**  Whatever is asked of a registry
that has no tools at first:

* each request has the answer that the tools registered before it call for;
* at every point, the names are those that the tools there are give themselves;
* only what requests register has a bearing on the registry that they leave: all others leave it as
  it is;
* tools with different names may be registered in either order. -/
theorem session_by_registrations :
    (∀ before request behind, ∃ answer,
      (empty.session (before ++ request :: behind))[before.length]? = some answer ∧
        Answers (registered before) request answer) ∧
    (∀ requests, (empty.afterAll requests).names =
      (empty.afterAll requests).tools.map fun (_, tool) => tool.name) ∧
    (∀ requests other, registered requests = registered other →
      empty.afterAll requests = empty.afterAll other) ∧
    (∀ requests request, request.tools = [] →
      empty.afterAll (requests ++ [request]) = empty.afterAll requests) ∧
    ∀ requests tool other, tool.name ≠ other.name →
      ((empty.afterAll requests).register tool).register other =
        ((empty.afterAll requests).register other).register tool := by
  refine ⟨fun before request behind => ?_, fun requests => (shows_afterAll requests).names_eq,
    fun requests other h => ?_, fun requests request h => ?_,
    fun requests tool other hne => (shows_afterAll requests).register_comm hne⟩
  · refine ⟨_, ?_, (shows_afterAll before).answers request⟩
    rw [session_append, List.getElem?_append_right (Nat.le_of_eq (length_session _ _)),
      length_session, Nat.sub_self, session, List.getElem?_cons_zero]
  · rw [afterAll_eq, afterAll_eq, h]
  · rw [afterAll, List.foldl_append, List.foldl_cons, List.foldl_nil, after_eq, h]
    rfl

/-- Of two tools with one name, the last one is defined. -/
example : empty.session [.register [⟨"unit", "the first", .null, .ok⟩],
      .register [⟨"unit", "the last", .null, .ok⟩], .definitions] =
    [.names ["unit"], .names ["unit"], .definitions [.object
      [("description", .string "the last"), ("inputSchema", .null), ("name", .string "unit")]]] :=
  rfl

/-- Two tools with different names, registered where there are tools with these names already, and
after a call and a question. -/
theorem session_registering_again :
    Tool.listCatalogue.name ≠ (Tool.convertUnits ⟨⟨2024, 6, 1, 12, 0, 0, 0⟩⟩).name ∧
    ∃ r, r = empty.afterAll [.register (Tool.allOf ⟨⟨2023, 1, 1, 0, 0, 0, 0⟩⟩),
        .has "calculator_convert_units", .execute "calculator_convert_units" .null] ∧
      (r.register Tool.listCatalogue).register (Tool.convertUnits ⟨⟨2024, 6, 1, 12, 0, 0, 0⟩⟩) =
        (r.register (Tool.convertUnits ⟨⟨2024, 6, 1, 12, 0, 0, 0⟩⟩)).register
          Tool.listCatalogue := by
  have hne : Tool.listCatalogue.name ≠
      (Tool.convertUnits ⟨⟨2024, 6, 1, 12, 0, 0, 0⟩⟩).name :=
    (by decide : "calculator_get_supported_calculator_functions" ≠ "calculator_convert_units")
  obtain ⟨-, -, -, -, hcomm⟩ := session_by_registrations
  exact ⟨hne, _, rfl, hcomm _ _ _ hne⟩

end Registry

end Reckoner
