import RecruFlow.Python.Value

/-!
# The JSON-LD blocks of a Rocket Jobs page

A page has any number of `application/ld+json` scripts, breadcrumbs and the like
among them. The job posting is searched for in each that parses.
-/

namespace RecruFlow.Connectors

/-- `node.get("@type") == "JobPosting"` -/
def isJobPosting (node : Dict) : Bool :=
  node.get "@type" = some (.str "JobPosting")

mutual

def findJobPosting : PyValue → Option Dict
  | .dict items => if isJobPosting ⟨items⟩ then some ⟨items⟩ else findInGraph items
  | .list entries => findInEntries entries
  | _ => none

/-- `node.get("@graph")`; the first item with the key is the one that counts. -/
def findInGraph : List (String × PyValue) → Option Dict
  | [] => none
  | (key, graph) :: items => if key = "@graph" then findIfList graph else findInGraph items

def findIfList : PyValue → Option Dict
  | .list entries => findInEntries entries
  | _ => none

def findInEntries : List PyValue → Option Dict
  | [] => none
  | entry :: entries =>
      match findJobPosting entry with
      | some found => some found
      | none => findInEntries entries

end

/-- The texts of the scripts in the order of the page; `none` is a `JSONDecodeError`. -/
def extractJobPostingJsonLd (loads : String → Option PyValue) : List String → Option Dict
  | [] => none
  | block :: blocks =>
      match loads block with
      | none => extractJobPostingJsonLd loads blocks
      | some parsed =>
          match findJobPosting parsed with
          | some jobPosting => some jobPosting
          | none => extractJobPostingJsonLd loads blocks

/-! ## The objects of a block in document order -/

mutual

/-- An object comes before those in its `"@graph"`. -/
def objects : PyValue → List Dict
  | .dict items => ⟨items⟩ :: graphObjects items
  | .list entries => entryObjects entries
  | _ => []

def graphObjects : List (String × PyValue) → List Dict
  | [] => []
  | (key, graph) :: items => if key = "@graph" then listObjects graph else graphObjects items

def listObjects : PyValue → List Dict
  | .list entries => entryObjects entries
  | _ => []

def entryObjects : List PyValue → List Dict
  | [] => []
  | entry :: entries => objects entry ++ entryObjects entries

end

/-- The object is in the value, through lists and the `"@graph"` lists of objects. -/
inductive Contains : PyValue → Dict → Prop
  | self (node : Dict) : Contains (.dict node.items) node
  | entry {entries : List PyValue} {value : PyValue} {node : Dict} (hmem : value ∈ entries)
      (hvalue : Contains value node) : Contains (.list entries) node
  | graph {top node : Dict} {entries : List PyValue} {value : PyValue}
      (hgraph : top.get "@graph" = some (.list entries)) (hmem : value ∈ entries)
      (hvalue : Contains value node) : Contains (.dict top.items) node

theorem entryObjects_eq (entries : List PyValue) :
    entryObjects entries = entries.flatMap objects := by
  induction entries with
  | nil => rfl
  | cons entry entries ih => rw [entryObjects, ih, List.flatMap_cons]

theorem graphObjects_eq (items : List (String × PyValue)) :
    graphObjects items = ((items.lookup "@graph").map listObjects).getD [] := by
  induction items with
  | nil => rfl
  | cons item items ih =>
      rw [graphObjects, List.lookup_cons]
      by_cases hkey : item.1 = "@graph"
      · rw [if_pos hkey, hkey, beq_self_eq_true]
        rfl
      · rw [if_neg hkey, beq_false_of_ne (Ne.symm hkey), ih]

mutual

theorem findJobPosting_eq : ∀ value, findJobPosting value = (objects value).find? isJobPosting
  | .dict items => by
      rw [findJobPosting, objects, List.find?_cons, findInGraph_eq items]
      cases isJobPosting ⟨items⟩ <;> rfl
  | .list entries => by rw [findJobPosting, objects, findInEntries_eq entries]
  | .none | .bool _ | .int _ | .float _ | .str _ | .datetime _ => rfl

theorem findInGraph_eq : ∀ items, findInGraph items = (graphObjects items).find? isJobPosting
  | [] => rfl
  | (key, graph) :: items => by
      rw [findInGraph, graphObjects, findIfList_eq graph, findInGraph_eq items]
      exact (apply_ite (List.find? isJobPosting) _ _ _).symm

theorem findIfList_eq : ∀ graph, findIfList graph = (listObjects graph).find? isJobPosting
  | .list entries => by rw [findIfList, listObjects, findInEntries_eq entries]
  | .dict _ | .none | .bool _ | .int _ | .float _ | .str _ | .datetime _ => rfl

theorem findInEntries_eq : ∀ entries,
    findInEntries entries = (entryObjects entries).find? isJobPosting
  | [] => rfl
  | entry :: entries => by
      rw [findInEntries, entryObjects, List.find?_append, findJobPosting_eq entry,
        findInEntries_eq entries]
      cases (objects entry).find? isJobPosting <;> rfl

end

variable {loads : String → Option PyValue} {value : PyValue} {node : Dict}

theorem mem_objects_of_contains (h : Contains value node) : node ∈ objects value := by
  induction h with
  | self node => exact List.mem_cons_self
  | entry hmem hvalue ih =>
      rw [objects, entryObjects_eq]
      exact List.mem_flatMap.mpr ⟨_, hmem, ih⟩
  | graph hgraph hmem hvalue ih =>
      rw [objects, graphObjects_eq]
      apply List.mem_cons_of_mem
      rw [Dict.get] at hgraph
      rw [hgraph]
      show _ ∈ entryObjects _
      rw [entryObjects_eq]
      exact List.mem_flatMap.mpr ⟨_, hmem, ih⟩

mutual

theorem contains_of_mem_objects : ∀ {value : PyValue}, node ∈ objects value → Contains value node
  | .dict items, h => by
      rw [objects, List.mem_cons] at h
      rcases h with rfl | h
      · exact .self _
      · obtain ⟨entries, value, hgraph, hmem, hvalue⟩ := contains_of_mem_graphObjects h
        exact @Contains.graph ⟨items⟩ _ _ _ hgraph hmem hvalue
  | .list entries, h => by
      obtain ⟨value, hmem, hvalue⟩ := contains_of_mem_entryObjects h
      exact .entry hmem hvalue
  | .none, h | .bool _, h | .int _, h | .float _, h | .str _, h | .datetime _, h => by cases h

theorem contains_of_mem_graphObjects : ∀ {items : List (String × PyValue)},
    node ∈ graphObjects items → ∃ entries value,
      items.lookup "@graph" = some (.list entries) ∧ value ∈ entries ∧ Contains value node
  | [], h => by cases h
  | (key, graph) :: items, h => by
      rw [graphObjects] at h
      rw [List.lookup_cons]
      by_cases hkey : key = "@graph"
      · rw [if_pos hkey] at h
        obtain ⟨entries, value, rfl, hmem, hvalue⟩ := contains_of_mem_listObjects h
        exact ⟨entries, value, by rw [hkey, beq_self_eq_true], hmem, hvalue⟩
      · rw [if_neg hkey] at h
        rw [beq_false_of_ne (Ne.symm hkey)]
        exact contains_of_mem_graphObjects h

theorem contains_of_mem_listObjects : ∀ {graph : PyValue}, node ∈ listObjects graph →
    ∃ entries value, graph = .list entries ∧ value ∈ entries ∧ Contains value node
  | .list entries, h => by
      obtain ⟨value, hmem, hvalue⟩ := contains_of_mem_entryObjects h
      exact ⟨entries, value, rfl, hmem, hvalue⟩
  | .dict _, h | .none, h | .bool _, h | .int _, h | .float _, h | .str _, h
  | .datetime _, h => by cases h

theorem contains_of_mem_entryObjects : ∀ {entries : List PyValue},
    node ∈ entryObjects entries → ∃ value, value ∈ entries ∧ Contains value node
  | [], h => by cases h
  | entry :: entries, h => by
      rw [entryObjects, List.mem_append] at h
      rcases h with hentry | hentries
      · exact ⟨entry, List.mem_cons_self, contains_of_mem_objects hentry⟩
      · obtain ⟨value, hmem, hvalue⟩ := contains_of_mem_entryObjects hentries
        exact ⟨value, List.mem_cons_of_mem _ hmem, hvalue⟩

end

theorem mem_objects_iff : node ∈ objects value ↔ Contains value node :=
  ⟨contains_of_mem_objects, mem_objects_of_contains⟩

/-! ## The first posting of the page -/

/-- The objects of the blocks that parse, block after block. -/
def pageObjects (loads : String → Option PyValue) (blocks : List String) : List Dict :=
  (blocks.filterMap loads).flatMap objects

/-- The block is malformed, or has no job posting in it. -/
def Unrelated (loads : String → Option PyValue) (block : String) : Prop :=
  ∀ parsed, loads block = some parsed → ∀ node, Contains parsed node → isJobPosting node = false

variable {blocks : List String}

theorem extractJobPostingJsonLd_eq :
    extractJobPostingJsonLd loads blocks = (pageObjects loads blocks).find? isJobPosting := by
  unfold pageObjects
  induction blocks with
  | nil => rfl
  | cons block blocks ih =>
      rw [extractJobPostingJsonLd, List.filterMap_cons]
      cases hblock : loads block with
      | none => exact ih
      | some parsed =>
          simp only [List.flatMap_cons, List.find?_append]
          rw [findJobPosting_eq, ih]
          cases (objects parsed).find? isJobPosting <;> rfl

theorem find?_of_unrelated (h : ∀ block ∈ blocks, Unrelated loads block) :
    (pageObjects loads blocks).find? isJobPosting = none := by
  rw [List.find?_eq_none]
  intro node hnode hposting
  obtain ⟨parsed, hparsed, hnode⟩ := List.mem_flatMap.mp hnode
  obtain ⟨block, hblock, hloads⟩ := List.mem_filterMap.mp hparsed
  have hnot := h block hblock parsed hloads node (mem_objects_iff.mp hnode)
  rw [hnot] at hposting
  cases hposting

theorem unrelated_of_find? (h : (pageObjects loads blocks).find? isJobPosting = none) :
    ∀ block ∈ blocks, Unrelated loads block := by
  intro block hblock parsed hloads node hnode
  apply Bool.eq_false_of_not_eq_true
  apply List.find?_eq_none.mp h node
  have hparsed : parsed ∈ blocks.filterMap loads := List.mem_filterMap.mpr ⟨block, hblock, hloads⟩
  exact List.mem_flatMap.mpr ⟨parsed, hparsed, mem_objects_iff.mpr hnode⟩

/-- The first object that is a posting is returned, and nothing if there is none; the blocks
without one are of no account wherever they stand. -/
theorem extractJobPostingJsonLd_first (loads : String → Option PyValue) :
    (∀ blocks node, extractJobPostingJsonLd loads blocks = some node ↔
      isJobPosting node ∧ ∃ earlier later, pageObjects loads blocks = earlier ++ node :: later ∧
        ∀ other ∈ earlier, isJobPosting other = false) ∧
    (∀ blocks, extractJobPostingJsonLd loads blocks = none ↔
      ∀ block ∈ blocks, Unrelated loads block) ∧
    (∀ before others after, (∀ block ∈ others, Unrelated loads block) →
      extractJobPostingJsonLd loads (before ++ others ++ after) =
        extractJobPostingJsonLd loads (before ++ after)) := by
  refine ⟨?_, ?_, ?_⟩
  · intro blocks node
    rw [extractJobPostingJsonLd_eq, List.find?_eq_some_iff_append]
    simp only [Bool.not_eq_true']
  · intro blocks
    rw [extractJobPostingJsonLd_eq]
    exact ⟨unrelated_of_find?, find?_of_unrelated⟩
  · intro before others after hothers
    have hnone := find?_of_unrelated hothers
    simp only [extractJobPostingJsonLd_eq]
    rw [pageObjects, pageObjects, List.filterMap_append, List.filterMap_append,
      List.filterMap_append, List.flatMap_append, List.flatMap_append, List.flatMap_append,
      List.find?_append, List.find?_append, List.find?_append]
    unfold pageObjects at hnone
    rw [hnone, Option.or_none]

/-- The posting in a `"@graph"` comes before the one that the next block is. -/
example :
    let posting := fun title => [("@type", PyValue.str "JobPosting"), ("title", .str title)]
    let loads := fun
      | "graph" => some (.list [.dict [("@type", .str "WebPage"),
          ("@graph", .list [.int 1, .dict (posting "Backend Engineer")])]])
      | "single" => some (.dict (posting "Tester"))
      | _ => none
    extractJobPostingJsonLd loads ["not json", "graph", "single"] =
      some ⟨posting "Backend Engineer"⟩ := by
  decide

end RecruFlow.Connectors
