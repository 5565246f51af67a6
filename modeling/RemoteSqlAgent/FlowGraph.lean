import Mathlib.Data.List.Basic
import Mathlib.Tactic.Common
import Mathlib.Logic.Function.Iterate

/-! Control flow as a graph whose nodes have two exits, one for success and one
for failure: which nodes can be reached, how a stack search finds them, and what
a run executes when an oracle decides every outcome. -/
namespace FlowGraph

/-- A start, the nodes there are, and where each goes on success and failure.
The start and an exit may name a node that is not there. -/
structure Flow (ι : Type) where
  start : ι
  present : ι → Bool
  next : ι → Bool → Option ι

/-- A node some run executes: runs begin at the start and follow exits for as
long as they name a node that is there. -/
inductive Flow.Reaches {ι : Type} (flow : Flow ι) : ι → Prop
  | start (present : flow.present flow.start = true) : Reaches flow flow.start
  | next {i j : ι} {outcome : Bool} (reached : Reaches flow i)
      (exit : flow.next i outcome = some j) (present : flow.present j = true) : Reaches flow j

variable {ι : Type} {flow changed : Flow ι} {i j k p : ι}

theorem Flow.Reaches.present (reached : flow.Reaches i) : flow.present i = true := by
  cases reached <;> assumption

/-! ## Searching with a stack -/

section Search
variable [DecidableEq ι]

/-- The exits of a node that are worth visiting, the last one pushed first. -/
def pushes (flow : Flow ι) (seen : List ι) (i : ι) : List ι :=
  [flow.next i false, flow.next i true].filterMap fun exit => exit.filter fun j => j ∉ seen

/-- Depth-first search. The stack holds nodes still to visit, its top first. -/
def search (flow : Flow ι) : Nat → List ι → List ι → List ι
  | 0, _, seen => seen
  | _ + 1, [], seen => seen
  | fuel + 1, i :: stack, seen =>
    if i ∈ seen then search flow fuel stack seen
    else if flow.present i then search flow fuel (pushes flow (i :: seen) i ++ stack) (i :: seen)
    else search flow fuel stack seen

/-- One pass of the search. With an empty stack there is none left to make. -/
def pass (flow : Flow ι) : List ι × List ι → List ι × List ι
  | ([], seen) => ([], seen)
  | (i :: stack, seen) =>
    if i ∈ seen then (stack, seen)
    else if flow.present i then (pushes flow (i :: seen) i ++ stack, i :: seen)
    else (stack, seen)

theorem search_eq_passes (flow : Flow ι) (fuel : Nat) : ∀ stack seen : List ι,
    search flow fuel stack seen = ((pass flow)^[fuel] (stack, seen)).2 := by
  induction fuel with
  | zero => intro stack seen; rfl
  | succ fuel ih =>
    intro stack seen
    rw [Function.iterate_succ_apply]
    cases stack with
    | nil =>
      have still : (pass flow)^[fuel] ([], seen) = ([], seen) := Function.iterate_fixed rfl fuel
      simp [search, pass, still]
    | cons i stack =>
      rw [search, pass]
      split
      · exact ih _ _
      · split
        · exact ih _ _
        · exact ih _ _

theorem mem_pushes {seen : List ι} :
    j ∈ pushes flow seen i ↔ (∃ outcome, flow.next i outcome = some j) ∧ j ∉ seen := by
  simp only [pushes, List.mem_filterMap, List.mem_cons, List.not_mem_nil, or_false,
    Option.filter_eq_some_iff, decide_eq_true_eq, Bool.exists_bool]
  constructor
  · rintro ⟨exit, rfl | rfl, leads, fresh⟩
    · exact ⟨Or.inl leads, fresh⟩
    · exact ⟨Or.inr leads, fresh⟩
  · rintro ⟨leads | leads, fresh⟩
    · exact ⟨_, Or.inl rfl, leads, fresh⟩
    · exact ⟨_, Or.inr rfl, leads, fresh⟩

private theorem length_pushes (flow : Flow ι) (seen : List ι) (i : ι) :
    (pushes flow seen i).length ≤ 2 := by
  exact List.length_filterMap_le _ _

/-- What the search maintains. Nothing is seen or waiting that a run does not
arrive at, and every node a seen node leads to is seen or waiting. -/
structure SearchInvariant (flow : Flow ι) (stack seen : List ι) : Prop where
  seenReached : ∀ i ∈ seen, flow.Reaches i
  stackReached : ∀ i ∈ stack, flow.present i = true → flow.Reaches i
  startCovered : flow.present flow.start = true → flow.start ∈ seen ∨ flow.start ∈ stack
  exitCovered : ∀ i ∈ seen, ∀ outcome j, flow.next i outcome = some j → flow.present j = true →
    j ∈ seen ∨ j ∈ stack

omit [DecidableEq ι] in
private theorem invariant_skip {stack seen : List ι} (invariant : SearchInvariant flow (i :: stack) seen)
    (covered : flow.present i = true → i ∈ seen) : SearchInvariant flow stack seen := by
  have popped : ∀ j, flow.present j = true → j ∈ seen ∨ j ∈ i :: stack → j ∈ seen ∨ j ∈ stack := by
    rintro j present (visited | waiting)
    · exact Or.inl visited
    · rcases List.mem_cons.mp waiting with rfl | waiting
      · exact Or.inl (covered present)
      · exact Or.inr waiting
  exact ⟨invariant.seenReached, fun j member => invariant.stackReached j (by simp [member]),
    fun present => popped _ present (invariant.startCovered present),
    fun from_ member outcome j exit present =>
      popped _ present (invariant.exitCovered from_ member outcome j exit present)⟩

private theorem invariant_visit {stack seen : List ι}
    (invariant : SearchInvariant flow (i :: stack) seen) (present : flow.present i = true) :
    SearchInvariant flow (pushes flow (i :: seen) i ++ stack) (i :: seen) := by
  have reached : flow.Reaches i := invariant.stackReached i (by simp) present
  have moved : ∀ j, j ∈ seen ∨ j ∈ i :: stack →
      j ∈ i :: seen ∨ j ∈ pushes flow (i :: seen) i ++ stack := by
    rintro j (visited | waiting)
    · exact Or.inl (by simp [visited])
    · rcases List.mem_cons.mp waiting with rfl | waiting
      · exact Or.inl (by simp)
      · exact Or.inr (by simp [waiting])
  refine ⟨?_, ?_, fun there => moved _ (invariant.startCovered there), ?_⟩
  · intro j member
    rcases List.mem_cons.mp member with rfl | member
    · exact reached
    · exact invariant.seenReached j member
  · intro j member there
    rcases List.mem_append.mp member with pushed | waiting
    · obtain ⟨⟨outcome, exit⟩, -⟩ := mem_pushes.mp pushed
      exact reached.next exit there
    · exact invariant.stackReached j (by simp [waiting]) there
  · intro from_ member outcome j exit there
    rcases List.mem_cons.mp member with rfl | member
    · by_cases visited : j ∈ from_ :: seen
      · exact Or.inl visited
      · exact Or.inr (List.mem_append_left _ (mem_pushes.mpr ⟨⟨outcome, exit⟩, visited⟩))
    · exact moved _ (invariant.exitCovered from_ member outcome j exit there)

/-- How many of the nodes are not yet seen. -/
private def unseen (nodes seen : List ι) : Nat := (nodes.filter fun i => i ∉ seen).length

private theorem unseen_visit {nodes seen : List ι} (member : i ∈ nodes) (fresh : i ∉ seen) :
    unseen nodes (i :: seen) < unseen nodes seen := by
  have split : (fun j => decide (j ∉ i :: seen)) = fun j => decide (j ≠ i) && decide (j ∉ seen) := by
    funext j
    by_cases same : j = i <;> by_cases visited : j ∈ seen <;> simp [same, visited]
  rw [unseen, unseen, split, ← List.filter_filter]
  exact List.length_filter_lt_length_iff_exists.mpr ⟨i, by simp [member, fresh], by simp⟩

/-- With fuel for every node the search empties its stack, so what it has seen
is all there is to see. -/
private theorem search_finishes {nodes : List ι} (listed : ∀ i, flow.present i = true → i ∈ nodes)
    (fuel : Nat) : ∀ (stack seen : List ι), SearchInvariant flow stack seen →
      stack.length + 2 * unseen nodes seen ≤ fuel →
      SearchInvariant flow [] (search flow fuel stack seen) := by
  induction fuel with
  | zero =>
    intro stack seen invariant enough
    have empty : stack = [] := List.eq_nil_of_length_eq_zero (by omega)
    exact empty ▸ invariant
  | succ fuel ih =>
    intro stack seen invariant enough
    cases stack with
    | nil => exact invariant
    | cons i stack =>
      rw [List.length_cons] at enough
      rw [search]
      split
      · rename_i visited
        exact ih stack seen (invariant_skip invariant fun _ => visited) (by omega)
      · rename_i fresh
        split
        · rename_i present
          have fewer := unseen_visit (listed i present) fresh
          have pushed := length_pushes flow (i :: seen) i
          refine ih _ _ (invariant_visit invariant present) ?_
          rw [List.length_append]
          omega
        · rename_i absent
          exact ih stack seen (invariant_skip invariant fun present => absurd present absent) (by omega)

private theorem passes_empty {nodes : List ι} (listed : ∀ i, flow.present i = true → i ∈ nodes) (fuel : Nat) :
    ∀ stack seen : List ι, stack.length + 2 * unseen nodes seen ≤ fuel →
      ((pass flow)^[fuel] (stack, seen)).1 = [] := by
  induction fuel with
  | zero =>
    intro stack seen enough
    change stack = []
    exact List.eq_nil_of_length_eq_zero (by omega)
  | succ fuel ih =>
    intro stack seen enough
    rw [Function.iterate_succ_apply]
    cases stack with
    | nil =>
      have still : (pass flow)^[fuel] ([], seen) = ([], seen) := Function.iterate_fixed rfl fuel
      simp [pass, still]
    | cons i stack =>
      rw [List.length_cons] at enough
      rw [pass]
      split
      · exact ih _ _ (by omega)
      · rename_i fresh
        split
        · rename_i present
          have fewer := unseen_visit (listed i present) fresh
          have pushed := length_pushes flow (i :: seen) i
          apply ih
          rw [List.length_append]
          omega
        · exact ih _ _ (by omega)

private theorem bound_start (nodes : List ι) : [flow.start].length + 2 * unseen nodes [] ≤ 2 * nodes.length + 1 := by
  have := List.length_filter_le (fun i => decide (i ∉ ([] : List ι))) nodes
  simp only [unseen, List.length_singleton]
  omega

/-- **The search ends.** Two passes for each node, and one more, leave nothing to visit. -/
theorem search_ends {nodes : List ι} (listed : ∀ i, flow.present i = true → i ∈ nodes) :
    (pass flow)^[2 * nodes.length + 1] ([flow.start], []) =
      ([], search flow (2 * nodes.length + 1) [flow.start] []) := by
  apply Prod.ext
  · exact passes_empty listed _ _ _ (bound_start nodes)
  · exact (search_eq_passes _ _ _ _).symm

/-- **The search is exact.** From the start alone it finds the nodes that runs
arrive at, and no others. -/
theorem mem_search_iff {nodes : List ι} (listed : ∀ i, flow.present i = true → i ∈ nodes) :
    i ∈ search flow (2 * nodes.length + 1) [flow.start] [] ↔ flow.Reaches i := by
  have begun : SearchInvariant flow [flow.start] [] := by
    refine ⟨by simp, ?_, fun _ => Or.inr (by simp), by simp⟩
    intro j member present
    cases List.mem_singleton.mp member
    exact .start present
  have done := search_finishes listed _ _ _ begun (bound_start nodes)
  constructor
  · exact done.seenReached i
  · intro reached
    induction reached with
    | start present => exact (done.startCovered present).resolve_right (by simp)
    | next _ exit present ih => exact (done.exitCovered _ ih _ _ exit present).resolve_right (by simp)

end Search

/-! ## Runs -/

/-- The nodes executed in the first steps of a run. The oracle decides an
outcome from what was executed before and the node at hand. -/
def trace (flow : Flow ι) (oracle : List ι → ι → Bool) : Nat → List ι → Option ι → List ι
  | 0, _, _ => []
  | _ + 1, _, none => []
  | steps + 1, past, some i =>
    if flow.present i then
      i :: trace flow oracle steps (past ++ [i]) (flow.next i (oracle past i))
    else []

/-- The first `steps` nodes a run executes. -/
def Flow.run (flow : Flow ι) (oracle : List ι → ι → Bool) (steps : Nat) : List ι :=
  trace flow oracle steps [] (some flow.start)

/-- What a run executes depends on what the oracle says along it. -/
private theorem trace_congr {oracle other : List ι → ι → Bool} (steps : Nat) : ∀ past position,
    (∀ between i rest, trace flow oracle steps past position = between ++ i :: rest →
      oracle (past ++ between) i = other (past ++ between) i) →
      trace flow oracle steps past position = trace flow other steps past position := by
  induction steps with
  | zero => exact fun _ _ _ => rfl
  | succ steps ih =>
    intro past position same
    cases position with
    | none => rfl
    | some i =>
      rw [trace, trace]
      split
      · rename_i present
        rw [trace, if_pos present] at same
        have first : oracle past i = other past i := by
          have at_ := same [] i _ rfl
          rwa [List.append_nil] at at_
        rw [← first]
        congr 1
        refine ih _ _ fun between j rest split => ?_
        have later := same (i :: between) j rest (by rw [split, List.cons_append])
        rwa [List.append_cons] at later
      · rfl

theorem run_congr {oracle other : List ι → ι → Bool} {steps : Nat}
    (same : ∀ past i rest, flow.run oracle steps = past ++ i :: rest → oracle past i = other past i) :
    flow.run oracle steps = flow.run other steps := by
  refine trace_congr steps [] _ fun between i rest split => ?_
  rw [List.nil_append]
  exact same between i rest split

/-! ## Renaming nodes -/

/-- `changed` is `flow` under other names, and perhaps more that `flow` does not name. -/
structure Renames {κ : Type} (flow : Flow ι) (changed : Flow κ) (rename : ι → κ) : Prop where
  start : changed.start = rename flow.start
  present : ∀ i, changed.present (rename i) = flow.present i
  next : ∀ i outcome, flow.present i = true → changed.next (rename i) outcome = (flow.next i outcome).map rename

theorem run_rename {κ : Type} {changed : Flow κ} {rename : ι → κ} (renames : Renames flow changed rename)
    (oracle : List κ → κ → Bool) (steps : Nat) : changed.run oracle steps =
      (flow.run (fun past i => oracle (past.map rename) (rename i)) steps).map rename := by
  have traces : ∀ steps past position, trace changed oracle steps (past.map rename) (position.map rename) =
      (trace flow (fun past i => oracle (past.map rename) (rename i)) steps past position).map rename := by
    intro steps
    induction steps with
    | zero => exact fun _ _ => rfl
    | succ steps ih =>
      intro past position
      cases position with
      | none => rfl
      | some i =>
        rw [Option.map_some, trace, trace, renames.present]
        split
        · rename_i present
          have onward := ih (past ++ [i]) (flow.next i (oracle (past.map rename) (rename i)))
          rw [List.map_append] at onward
          rw [renames.next i _ present, List.map_cons]
          exact congrArg _ onward
        · rfl
  have whole := traces steps [] (some flow.start)
  rw [Option.map_some, ← renames.start] at whole
  exact whole

/-! ## Routing around a node -/

/-- `changed` is `flow` with every way into `k` from elsewhere led on to where
`k` goes on success. -/
structure Bypasses (flow changed : Flow ι) (k : ι) : Prop where
  present : changed.present = flow.present
  there : flow.present k = true
  away : flow.next k true ≠ some k
  startLedOn : flow.start = k → flow.next k true = some changed.start
  startKept : flow.start ≠ k → changed.start = flow.start
  nextLedOn : ∀ i ≠ k, ∀ outcome, flow.next i outcome = some k →
    changed.next i outcome = flow.next k true
  nextKept : ∀ i ≠ k, ∀ outcome, flow.next i outcome ≠ some k →
    changed.next i outcome = flow.next i outcome

/-- A flow with a node that is not its start left out. -/
def Flow.around [DecidableEq ι] (flow : Flow ι) (k : ι) : Flow ι where
  start := flow.start
  present := flow.present
  next i outcome := if i ≠ k ∧ flow.next i outcome = some k then flow.next k true else flow.next i outcome

theorem bypasses_around [DecidableEq ι] (there : flow.present k = true) (away : flow.next k true ≠ some k)
    (elsewhere : flow.start ≠ k) : Bypasses flow (flow.around k) k where
  present := rfl
  there := there
  away := away
  startLedOn starts := absurd starts elsewhere
  startKept _ := rfl
  nextLedOn _ other _ leads := if_pos ⟨other, leads⟩
  nextKept _ _ _ leads := if_neg fun both => leads both.2

/-- Nothing leads to a bypassed node from elsewhere. -/
theorem Bypasses.next_ne (bypass : Bypasses flow changed k) (other : i ≠ k) (outcome : Bool) :
    changed.next i outcome ≠ some k := by
  by_cases leads : flow.next i outcome = some k
  · rw [bypass.nextLedOn i other outcome leads]
    exact bypass.away
  · rw [bypass.nextKept i other outcome leads]
    exact leads

/-- A bypassed node is out of reach. -/
theorem Bypasses.not_reaches (bypass : Bypasses flow changed k) : ¬ changed.Reaches k := by
  intro reached
  generalize same : k = i at reached
  induction reached with
  | start =>
    by_cases starts : flow.start = k
    · exact bypass.away (same ▸ bypass.startLedOn starts)
    · exact starts (bypass.startKept starts ▸ same.symm)
  | @next i j outcome reached exit present ih =>
    subst same
    exact bypass.next_ne (fun same => ih same.symm) outcome exit

section Bypass
variable [DecidableEq ι] (oracle : List ι → ι → Bool)

/-- Outcomes for the original flow: the bypassed node always succeeds, and is
left out of what the oracle sees. -/
def succeeding (k : ι) (past : List ι) (i : ι) : Bool :=
  if i = k then true else oracle (past.filter (· ≠ k)) i

/-- Between two visible nodes the original run spends at most one step on `k`,
so twice as many of its steps show as many nodes. The first half is about a
run that is not at `k`, the second about one that is. -/
private theorem trace_bypass (bypass : Bypasses flow changed k) (steps : Nat) :
    (∀ past position long, position ≠ some k → 2 * steps ≤ long + 1 →
      trace changed oracle steps (past.filter (· ≠ k)) position =
        ((trace flow (succeeding oracle k) long past position).filter (· ≠ k)).take steps) ∧
    (∀ past long, 2 * steps ≤ long →
      trace changed oracle steps (past.filter (· ≠ k)) (flow.next k true) =
        ((trace flow (succeeding oracle k) long past (some k)).filter (· ≠ k)).take steps) := by
  induction steps with
  | zero => simp [trace]
  | succ steps ih =>
    obtain ⟨ihAway, ihAt⟩ := ih
    have away : ∀ past position long, position ≠ some k → 2 * (steps + 1) ≤ long + 1 →
        trace changed oracle (steps + 1) (past.filter (· ≠ k)) position =
          ((trace flow (succeeding oracle k) long past position).filter (· ≠ k)).take (steps + 1) := by
      intro past position long elsewhere enough
      obtain ⟨long, rfl⟩ : ∃ fewer, long = fewer + 1 := ⟨long - 1, by omega⟩
      cases position with
      | none => simp [trace]
      | some i =>
        have other : i ≠ k := fun same => elsewhere (same ▸ rfl)
        simp only [trace, bypass.present]
        split
        · have visible : (past ++ [i]).filter (· ≠ k) = past.filter (· ≠ k) ++ [i] := by
            simp [List.filter_append, other]
          have outcome : succeeding oracle k past i = oracle (past.filter (· ≠ k)) i :=
            if_neg other
          simp only [List.filter_cons, other, ne_eq, not_false_eq_true, decide_true, ↓reduceIte,
            List.take_succ_cons, List.cons.injEq, true_and, outcome]
          by_cases leads : flow.next i (oracle (past.filter (· ≠ k)) i) = some k
          · have onward := ihAt (past ++ [i]) long (by omega)
            rw [visible] at onward
            rw [bypass.nextLedOn i other _ leads, leads]
            exact onward
          · have onward := ihAway (past ++ [i]) _ long leads (by omega)
            rw [visible] at onward
            rw [bypass.nextKept i other _ leads]
            exact onward
        · simp
    refine ⟨away, fun past long enough => ?_⟩
    obtain ⟨long, rfl⟩ : ∃ fewer, long = fewer + 1 := ⟨long - 1, by omega⟩
    have hidden : (past ++ [k]).filter (· ≠ k) = past.filter (· ≠ k) := by simp [List.filter_append]
    have onward := away (past ++ [k]) (flow.next k true) long bypass.away (by omega)
    rw [hidden] at onward
    rw [onward]
    simp [trace, bypass.there, succeeding]

/-- **Routing around a node is a simulation.** What the changed flow executes
is what the original executes when the bypassed node always succeeds and its
visits are erased. -/
theorem run_bypass (bypass : Bypasses flow changed k) {steps long : Nat} (enough : 2 * steps ≤ long) :
    changed.run oracle steps =
      ((flow.run (succeeding oracle k) long).filter (· ≠ k)).take steps := by
  have both := trace_bypass oracle bypass steps
  by_cases starts : flow.start = k
  · have led := both.2 [] long enough
    rw [bypass.startLedOn starts] at led
    rw [Flow.run, Flow.run, starts]
    exact led
  · have kept := both.1 [] (some flow.start) long (fun same => starts (Option.some.inj same)) (by omega)
    rw [Flow.run, Flow.run, bypass.startKept starts]
    exact kept

end Bypass

/-! ## Leading one node's exits to another -/

/-- `changed` is `flow` with some exits of `p` led to `k`, and any exits of `k`. -/
structure Retargets (flow changed : Flow ι) (p k : ι) : Prop where
  start : changed.start = flow.start
  present : changed.present = flow.present
  there : flow.present k = true
  unreached : ¬ flow.Reaches k
  kept : ∀ i, i ≠ p → i ≠ k → changed.next i = flow.next i
  exits : ∀ outcome, changed.next p outcome = flow.next p outcome ∨ changed.next p outcome = some k

/-- A node that was out of reach comes into reach exactly when a node in reach
is led to it. -/
theorem Retargets.reaches_iff (retarget : Retargets flow changed p k) :
    changed.Reaches k ↔ flow.Reaches p ∧ ∃ outcome, changed.next p outcome = some k := by
  constructor
  · have before : ∀ i, changed.Reaches i → flow.Reaches i ∨
        (flow.Reaches p ∧ ∃ outcome, changed.next p outcome = some k) := by
      intro i reached
      induction reached with
      | start present =>
        rw [retarget.start, retarget.present] at present
        exact Or.inl (retarget.start ▸ .start present)
      | @next i j outcome reached exit present ih =>
        rw [retarget.present] at present
        refine ih.elim (fun earlier => ?_) Or.inr
        by_cases atP : i = p
        · subst atP
          rcases retarget.exits outcome with same | leads
          · exact Or.inl (earlier.next (same ▸ exit) present)
          · exact Or.inr ⟨earlier, outcome, leads⟩
        · have notK : i ≠ k := fun same => retarget.unreached (same ▸ earlier)
          exact Or.inl (earlier.next (retarget.kept i atP notK ▸ exit) present)
    exact fun reached => (before k reached).resolve_left retarget.unreached
  · rintro ⟨reachedP, outcome, leads⟩
    have after : ∀ i, flow.Reaches i → changed.Reaches i ∨ changed.Reaches p := by
      intro i reached
      induction reached with
      | start present => exact Or.inl (retarget.start ▸ .start (by rwa [retarget.present, retarget.start]))
      | @next i j outcome earlier exit present ih =>
        refine ih.elim (fun reached => ?_) Or.inr
        by_cases atP : i = p
        · exact Or.inr (atP ▸ reached)
        · have notK : i ≠ k := fun same => retarget.unreached (same ▸ earlier)
          have same : changed.next i outcome = some j := by rw [retarget.kept i atP notK, exit]
          exact Or.inl (reached.next same (by rwa [retarget.present]))
    exact ((after p reachedP).elim id id).next leads (by rw [retarget.present]; exact retarget.there)

end FlowGraph
