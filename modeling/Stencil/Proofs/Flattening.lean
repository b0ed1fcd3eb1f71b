import Mathlib.Logic.Relation
import Mathlib.Order.WellFounded
import Stencil.Flattening
import Stencil.Proofs.Nodes

/-!
# Laws of flattening

Equations and an induction principle for flattening, which follow the nesting of bodies and
at a block go on with the body that is chosen for it. Then the order of overrides: since
the blocks of a template are listed outside in, whatever stands in an override stands
behind it in the list, and the body that counts for a name is the last one of the name. So
the names in a body that counts have overrides further behind, and no name can come back
to itself.
-/

namespace Stencil.Overrides

variable (overrides : Overrides)

/-- The body that flattening goes on with at a block inside the blocks called `expanding`. A block
inside a block of its own name keeps its body, and so does a block whose name has no override. -/
def chosen (expanding : List String) (name : String) (body : List Node) : List Node :=
  if name ∈ expanding then body else (overrides.body? name).getD body

section Equations

variable (expanding : List String) (rest : List Node)

/-- Without nodes nothing is left to flatten. -/
@[simp] theorem flatten_nil : overrides.flatten expanding [] = [] := by rw [flatten]

/-- A text stays as it is. -/
@[simp] theorem flatten_text (s : String) : overrides.flatten expanding (.text s :: rest) =
    .text s :: overrides.flatten expanding rest := by
  rw [flatten, flattenNode]

/-- So does the output of a value. -/
@[simp] theorem flatten_output (e : Expr) : overrides.flatten expanding (.output e :: rest) =
    .output e :: overrides.flatten expanding rest := by
  rw [flatten, flattenNode]

/-- A loop keeps its head, and its body is flattened inside the same blocks. -/
@[simp] theorem flatten_loop (target : String) (sequence : Expr) (body : List Node) :
    overrides.flatten expanding (.loop target sequence body :: rest) =
      .loop target sequence (overrides.flatten expanding body) ::
        overrides.flatten expanding rest := by
  rw [flatten, flattenNode]

/-- The cases of a choice are flattened one by one, and their conditions stay. This replaces the
companion function for lists of cases, so that no later proof names it. -/
theorem flatten_cases (cases : List (Expr × List Node)) :
    overrides.flattenCases expanding cases =
      cases.map fun case => (case.1, overrides.flatten expanding case.2) := by
  induction cases with
  | nil => rw [flattenCases, List.map_nil]
  | cons case rest inductionHypothesis => rw [flattenCases, inductionHypothesis, List.map_cons]

/-- A choice keeps its conditions, and each of its bodies is flattened inside the same blocks. -/
@[simp] theorem flatten_choice (cases : List (Expr × List Node))
    (otherwise : Option (List Node)) :
    overrides.flatten expanding (.choice cases otherwise :: rest) =
      .choice (cases.map fun case => (case.1, overrides.flatten expanding case.2))
        (otherwise.map (overrides.flatten expanding)) :: overrides.flatten expanding rest := by
  rw [flatten, flattenNode, flatten_cases]
  cases otherwise <;> rw [flattenOption] <;> rfl

/-- A block keeps its name. What is flattened inside one more block is the body that is chosen, and
with this equation the two ways to choose it need not be told apart. -/
@[simp] theorem flatten_block (name : String) (body : List Node) :
    overrides.flatten expanding (.block name body :: rest) =
      .block name (overrides.flatten (name :: expanding) (overrides.chosen expanding name body)) ::
        overrides.flatten expanding rest := by
  rw [flatten, flattenNode]
  unfold chosen
  split
  · rfl
  · split <;> simp_all

/-- The name of a parent stays as it is; only where the nodes come from makes sure that there is
none. -/
@[simp] theorem flatten_inherits (parent : String) :
    overrides.flatten expanding (.inherits parent :: rest) =
      .inherits parent :: overrides.flatten expanding rest := by
  rw [flatten, flattenNode]

/-- The name of an embedded template stays as it is, for it is not resolved before it is
rendered. -/
@[simp] theorem flatten_embed (template : String) :
    overrides.flatten expanding (.embed template :: rest) =
      .embed template :: overrides.flatten expanding rest := by
  rw [flatten, flattenNode]

end Equations

/-- Induction along flattening. At a block the hypothesis is about the chosen body inside one more
block, which need not be a part of the block; that it comes to an end is justified once, by the
recursion of flattening itself. -/
theorem flatten_induction {P : List String → List Node → Prop}
    (nil : ∀ expanding, P expanding [])
    (text : ∀ expanding s rest, P expanding rest → P expanding (.text s :: rest))
    (output : ∀ expanding e rest, P expanding rest → P expanding (.output e :: rest))
    (loop : ∀ expanding target sequence body rest, P expanding body → P expanding rest →
      P expanding (.loop target sequence body :: rest))
    (choice : ∀ expanding cases otherwise rest, (∀ case ∈ cases, P expanding case.2) →
      (∀ body ∈ otherwise, P expanding body) → P expanding rest →
      P expanding (.choice cases otherwise :: rest))
    (block : ∀ expanding name body rest,
      P (name :: expanding) (overrides.chosen expanding name body) → P expanding rest →
      P expanding (.block name body :: rest))
    (inherits : ∀ expanding parent rest, P expanding rest → P expanding (.inherits parent :: rest))
    (embed : ∀ expanding template rest, P expanding rest → P expanding (.embed template :: rest))
    (expanding : List String) (nodes : List Node) : P expanding nodes := by
  refine flatten.induct overrides
    (fun expanding node => ∀ rest, P expanding rest → P expanding (node :: rest))
    (fun expanding otherwise => ∀ body ∈ otherwise, P expanding body) P
    (fun expanding cases => ∀ case ∈ cases, P expanding case.2)
    text output (fun expanding target sequence body inner rest => loop _ _ _ _ _ inner)
    (fun expanding cases otherwise inCases inOther rest => choice _ _ _ _ inCases inOther)
    ?_ ?_ ?_ inherits embed ?_ ?_ nil (fun expanding node rest first behind => first rest behind)
    ?_ ?_ expanding nodes
  · intro expanding name body held inner rest behind
    exact block expanding name body rest (by rwa [chosen, if_pos held]) behind
  · intro expanding name body fresh override counts inner rest behind
    exact block expanding name body rest (by rwa [chosen, if_neg fresh, counts]) behind
  · intro expanding name body fresh none inner rest behind
    exact block expanding name body rest (by rwa [chosen, if_neg fresh, none]) behind
  · intro expanding body present
    cases present
  · intro expanding body inner other present
    cases present
    exact inner
  · intro expanding case member
    cases member
  · intro expanding condition body rest inner behind case member
    rcases List.mem_cons.mp member with rfl | later
    · exact inner
    · exact behind case later

/-- Of two lists of overrides the later one is asked first. The earlier one counts only for names
that the later one does not have. -/
theorem body_append (left right : Overrides) (name : String) :
    body? (left ++ right) name = (body? right name).or (body? left name) := by
  induction left with
  | nil => simp [body?]
  | cons override rest inductionHypothesis =>
    obtain ⟨other, body⟩ := override
    rw [List.cons_append, body?, body?, inductionHypothesis]
    cases body? right name <;> rfl

/-- No body counts for a name exactly if there is no override of the name. The induction goes from
the end of the list, where looking for a body begins. -/
theorem body_none_iff (name : String) :
    overrides.body? name = none ↔ name ∉ overrides.map Prod.fst := by
  induction overrides with
  | nil => simp [body?]
  | cons override rest inductionHypothesis =>
    obtain ⟨other, body⟩ := override
    rw [body?, List.map_cons, List.mem_cons, not_or, ← inductionHypothesis]
    cases body? rest name with
    | some later => simp
    | none =>
      by_cases same : other = name
      · simp [same]
      · simp [same, Ne.symm same]

/-- The body that counts is the one of the last override of the name. What stands in front of it may
override the name as well and is not looked at. The induction is on the overrides, and what is
behind is asked first. -/
theorem body_some_iff (name : String) (body : List Node) :
    overrides.body? name = some body ↔
      ∃ before behind, overrides = before ++ (name, body) :: behind ∧
        name ∉ behind.map Prod.fst := by
  constructor
  · intro counts
    induction overrides with
    | nil => cases counts
    | cons override rest inductionHypothesis =>
      obtain ⟨other, own⟩ := override
      rw [body?] at counts
      cases later : body? rest name with
      | some found =>
        rw [later] at counts
        obtain ⟨before, behind, parts, absent⟩ := inductionHypothesis (later.trans counts)
        exact ⟨(other, own) :: before, behind, by rw [parts, List.cons_append], absent⟩
      | none =>
        rw [later] at counts
        obtain ⟨rfl, rfl⟩ : other = name ∧ own = body := by simpa using counts
        exact ⟨[], rest, rfl, (body_none_iff rest other).mp later⟩
  · rintro ⟨before, behind, rfl, absent⟩
    have here : body? ((name, body) :: behind) name = some body := by
      rw [body?, (body_none_iff behind name).mpr absent]
      simp
    rw [body_append, here, Option.some_or]

/-- Where no two overrides have one name, every override counts, and the order among them does not
matter. -/
theorem body_of_nodup (distinct : (overrides.map Prod.fst).Nodup) (name : String)
    (body : List Node) : overrides.body? name = some body ↔ (name, body) ∈ overrides := by
  rw [body_some_iff]
  constructor
  · rintro ⟨before, behind, rfl, -⟩
    exact List.mem_append_right before List.mem_cons_self
  · intro member
    obtain ⟨before, behind, rfl⟩ := List.append_of_mem member
    refine ⟨before, behind, rfl, ?_⟩
    rw [List.map_append, List.map_cons, List.nodup_append] at distinct
    exact (List.nodup_cons.mp distinct.2.1).1

/-- The blocks of a lineage are the blocks among all nodes of its templates, from the root down and
in each template outside in. -/
theorem ofLineage_eq_filterMap (lineage : List Entry) :
    ofLineage lineage =
      (lineage.flatMap fun entry => Node.allOf entry.template.nodes).filterMap Node.block? := by
  rw [ofLineage, List.filterMap_flatMap]
  exact List.flatMap_congr fun entry _ => Node.blocks_of_eq_filterMap entry.template.nodes

/-- Where an override of a lineage stands, the blocks in its body follow at once. This is why the
order of the list knows about nesting. -/
theorem ofLineage_behind {lineage : List Entry} {before behind : Overrides} {name : String}
    {body : List Node} (parts : ofLineage lineage = before ++ (name, body) :: behind) :
    Node.blocksOf body <+: behind := by
  rw [ofLineage_eq_filterMap] at parts
  refine Node.blocks_of_behind ?_ parts
  exact Node.preorder_flatMap lineage _ fun entry _ => Node.preorder_all_of entry.template.nodes

/-- The number of overrides behind the last one of a name. It goes down from a block that counts to
the blocks inside of it, and is what a measure on names is made from. -/
def rank (name : String) : Nat := overrides.reverse.findIdx (·.1 == name)

variable {overrides}

/-- The rank of a name is the number of overrides behind its last one. The premise says that the
override at hand is the last one. -/
theorem rank_last {before behind : Overrides} {name : String} {body : List Node}
    (absent : name ∉ behind.map Prod.fst) :
    rank (before ++ (name, body) :: behind) name = behind.length := by
  have elsewhere : ∀ override ∈ behind.reverse, (override.1 == name) = false := by
    intro override member
    rw [beq_eq_false_iff_ne]
    rintro rfl
    exact absent (List.mem_map_of_mem (List.mem_reverse.mp member))
  have none : behind.reverse.findIdx (·.1 == name) = behind.length := by
    rw [List.findIdx_eq_length_of_false elsewhere, List.length_reverse]
  rw [rank, List.reverse_append, List.reverse_cons, List.append_assoc, List.findIdx_append, none]
  simp [List.findIdx_cons]

/-- A name with an override among the last ones has a rank below their number. Together with the
rank of an override it compares the names of a block and of those in its body. -/
theorem rank_behind {before behind : Overrides} {name : String}
    (present : name ∈ behind.map Prod.fst) : rank (before ++ behind) name < behind.length := by
  obtain ⟨override, member, same⟩ := List.mem_map.mp present
  have found : ∃ override ∈ behind.reverse, (override.1 == name) = true :=
    ⟨override, List.mem_reverse.mpr member, beq_iff_eq.mpr same⟩
  have early : behind.reverse.findIdx (·.1 == name) < behind.reverse.length :=
    List.findIdx_lt_length_of_exists found
  rw [rank, List.reverse_append, List.findIdx_append, if_pos early]
  rwa [List.length_reverse] at early

end Stencil.Overrides
