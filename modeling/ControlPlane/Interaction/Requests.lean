import ControlPlane.Interaction.Refinement
import Mathlib.Data.List.Nodup
import Mathlib.Logic.Function.Basic

/-!
# Requests to a shared object

Requests are served at once, each by a program of its own over a common world in which others act
as well. A request may be abandoned anywhere, and a crash abandons all of them. The history is what
the clients see: who asked what, who was answered what, in which order.

A history is linearizable when there is one order in which an abstract machine does what was asked
for, with what others did in between: every answer is the one the machine gives, a request that is
answered before another one is made comes first, and a request that is answered aside has done
nothing. It is enough that the program of every request does at most one action of the machine.
-/

namespace ControlPlane.Interaction

/-- What the clients see. Tickets tell the requests apart. -/
inductive Seen (Request Response : Type) where
  | invoked (ticket : Nat) (request : Request)
  | responded (ticket : Nat) (response : Response)

variable {Request Response Op : Type} {Answer : Op → Type} {W Act A : Type}

/-! ## Histories -/

section Histories

variable {history : List (Seen Request Response)} {first second : Nat}

/-- A request was answered before another one was made. -/
def Precedes (history : List (Seen Request Response)) (first second : Nat) : Prop :=
  ∃ before after response request, history = before ++ after ∧
    .responded first response ∈ before ∧ .invoked second request ∈ after

/-- What the last entry of a history adds. -/
theorem Precedes.of_snoc {seen : Seen Request Response}
    (h : Precedes (history ++ [seen]) first second) :
    Precedes history first second ∨
      (∃ response, .responded first response ∈ history) ∧
        ∃ request, seen = .invoked second request := by
  obtain ⟨before, after, response, request, hsplit, hresponded, hinvoked⟩ := h
  rcases List.eq_nil_or_concat after with rfl | ⟨after, last, rfl⟩
  · cases hinvoked
  · rw [List.concat_eq_append] at hsplit hinvoked
    rw [← List.append_assoc] at hsplit
    obtain ⟨rfl, hlast⟩ := List.append_inj' hsplit rfl
    cases hlast
    rcases List.mem_append.mp hinvoked with hinvoked | hinvoked
    · exact .inl ⟨before, after, response, request, rfl, hresponded, hinvoked⟩
    · exact .inr ⟨⟨response, List.mem_append_left _ hresponded⟩, request,
        (List.mem_singleton.mp hinvoked).symm⟩

theorem Precedes.responded (h : Precedes history first second) :
    ∃ response, .responded first response ∈ history := by
  obtain ⟨before, after, response, request, rfl, hresponded, -⟩ := h
  exact ⟨response, List.mem_append_left _ hresponded⟩

end Histories

/-- What requests ask of a machine. -/
structure Contract (Request Response Act : Type) where
  /-- the action a request asks for, and the response it then gets -/
  answers : Request → Act → Response → Prop
  /-- the responses of a request that has done nothing -/
  aside : Request → Response → Prop
  /-- the actions that others do -/
  others : Act → Prop

/-- The actions in one order, with the tickets of those that were asked for. -/
structure Linearization (M : Machine Act A) (contract : Contract Request Response Act) (start : A)
    (history : List (Seen Request Response)) (order : List (Option Nat × Act)) (last : A) :
    Prop where
  legal : M.Trace start (order.map Prod.snd) last
  once : (order.filterMap Prod.fst).Nodup
  asked : ∀ ticket act, (some ticket, act) ∈ order →
    ∃ request response, .invoked ticket request ∈ history ∧ contract.answers request act response
  others : ∀ act, (none, act) ∈ order → contract.others act
  answered : ∀ ticket request response, .invoked ticket request ∈ history →
    .responded ticket response ∈ history →
    (contract.aside request response ∧ ∀ act, (some ticket, act) ∉ order) ∨
      ∃ act, (some ticket, act) ∈ order ∧ contract.answers request act response
  realTime : ∀ first second act act', Precedes history first second →
    (some first, act) ∈ order → (some second, act') ∈ order →
    [(some first, act), (some second, act')].Sublist order

/-! ## Serving -/

/-- How requests are served. -/
structure Serving (Request Response Op : Type) (Answer : Op → Type) (W : Type) where
  main : Request → Program Op Answer Response
  /-- an operation of a request, done and answered -/
  exec : W → (op : Op) → Answer op → W → Prop
  /-- a step of another party -/
  others : W → W → Prop
  crash : W → W → Prop

namespace Serving

/-- The world, the requests in progress, and what the clients have seen. -/
structure State (Request Response Op : Type) (Answer : Op → Type) (W : Type) where
  world : W
  task : Nat → Option (Program Op Answer Response)
  history : List (Seen Request Response)

/-- Nothing has been asked. -/
def State.idle (world : W) : State Request Response Op Answer W := ⟨world, fun _ => none, []⟩

variable (S : Serving Request Response Op Answer W)

/-- One step of a request, or of another party. -/
inductive Step (c : State Request Response Op Answer W) :
    State Request Response Op Answer W → Prop where
  | others {world'} : S.others c.world world' → Step c { c with world := world' }
  | invoke {ticket} (request) : (∀ other, .invoked ticket other ∉ c.history) →
      Step c
        { c with
          task := Function.update c.task ticket (some (S.main request))
          history := c.history ++ [.invoked ticket request] }
  | perform {ticket op next answer world'} : c.task ticket = some (.call op next) →
      S.exec c.world op answer world' →
      Step c
        { c with
          world := world'
          task := Function.update c.task ticket (some (next answer)) }
  | respond {ticket response} : c.task ticket = some (.done response) →
      Step c
        { c with
          task := Function.update c.task ticket none
          history := c.history ++ [.responded ticket response] }
  | abandon (ticket) : Step c { c with task := Function.update c.task ticket none }
  | crash {world'} : S.crash c.world world' →
      Step c { c with world := world', task := fun _ => none }

/-- Reachability. -/
def Reach : State Request Response Op Answer W → State Request Response Op Answer W → Prop :=
  Relation.ReflTransGen S.Step

end Serving

namespace Serving

variable {S : Serving Request Response Op Answer W} {start c : State Request Response Op Answer W}
  {ticket : Nat} {world world' : W} {log log' : Log Op Answer} {response : Response}

/-- A request in progress that nothing interferes with. -/
theorem Reach.of_runs {program : Program Op Answer Response}
    {task : Nat → Option (Program Op Answer Response)} {history : List (Seen Request Response)}
    (hruns : Runs S.exec program world log response world' log')
    (h : S.Reach start ⟨world, Function.update task ticket (some program), history⟩) :
    S.Reach start
      ⟨world', Function.update task ticket none, history ++ [.responded ticket response]⟩ := by
  induction hruns with
  | done =>
    have hstep := Relation.ReflTransGen.tail h (Step.respond (Function.update_self ..))
    rwa [Function.update_idem] at hstep
  | call hexec _ ih =>
    refine ih ?_
    have hstep := Relation.ReflTransGen.tail h (Step.perform (Function.update_self ..) hexec)
    rwa [Function.update_idem] at hstep

/-- A request from its arrival to its answer, if nothing interferes with it. -/
theorem Reach.serve (h : S.Reach start c) (ticket : Nat) (request : Request)
    (hfresh : ∀ other, .invoked ticket other ∉ c.history)
    (hruns : Runs S.exec (S.main request) c.world [] response world' log') :
    S.Reach start
      ⟨world', Function.update c.task ticket none,
        c.history ++ [.invoked ticket request] ++ [.responded ticket response]⟩ :=
  .of_runs hruns (Relation.ReflTransGen.tail h (Step.invoke request hfresh))

end Serving

/-! ## Programs that do at most one action -/

section Programs

/-- What an operation and its answer may have been: an action of the machine, or none. -/
abbrev Meaning (Op : Type) (Answer : Op → Type) (Act : Type) :=
  (op : Op) → Answer op → Option Act → Prop

variable (meaning : Meaning Op Answer Act) (contract : Contract Request Response Act)
  (request : Request)

/-- The request has done its action, and does no other one. -/
def Settled (act : Act) : Program Op Answer Response → Prop
  | .done response => contract.answers request act response
  | .call op next => ∀ answer meant, meaning op answer meant →
      meant = none ∧ Settled act (next answer)

/-- The request has done nothing so far, and does at most one action. -/
def Atomic : Program Op Answer Response → Prop
  | .done response => contract.aside request response
  | .call op next => ∀ answer meant, meaning op answer meant →
      (meant = none → Atomic (next answer)) ∧
        ∀ act, meant = some act →
          (∃ response, contract.answers request act response) ∧
            Settled meaning contract request act (next answer)

end Programs

/-! ## Linearizability -/

section Steps

variable {M : Machine Act A} {contract : Contract Request Response Act} {start last last' : A}
  {history : List (Seen Request Response)} {order : List (Option Nat × Act)} {act : Act}
  {ticket : Nat} {request : Request} {response : Response}

/-- Others do an action. -/
theorem Linearization.other_acts (h : Linearization M contract start history order last)
    (hstep : M.step last act last') (hothers : contract.others act) :
    Linearization M contract start history (order ++ [(none, act)]) last' := by
  have hmem : ∀ {ticket other}, (some ticket, other) ∈ order ++ [(none, act)] →
      (some ticket, other) ∈ order := by
    intro ticket other hmem
    rcases List.mem_append.mp hmem with hmem | hmem
    · exact hmem
    · cases List.mem_singleton.mp hmem
  refine ⟨?_, ?_, fun ticket other hother => h.asked ticket other (hmem hother), ?_, ?_, ?_⟩
  · rw [List.map_append]
    exact h.legal.snoc hstep
  · rw [List.filterMap_append]
    simpa using h.once
  · intro other hother
    rcases List.mem_append.mp hother with hother | hother
    · exact h.others other hother
    · cases List.mem_singleton.mp hother
      exact hothers
  · intro ticket request response hinvoked hresponded
    rcases h.answered ticket request response hinvoked hresponded with
      ⟨haside, hnone⟩ | ⟨other, hother, hanswers⟩
    · exact .inl ⟨haside, fun other hother => hnone other (hmem hother)⟩
    · exact .inr ⟨other, List.mem_append_left _ hother, hanswers⟩
  · intro first second act act' hprecedes hfirst hsecond
    exact (h.realTime first second act act' hprecedes (hmem hfirst) (hmem hsecond)).trans
      (List.sublist_append_left _ _)

/-- A request does its action. -/
theorem Linearization.request_acts (h : Linearization M contract start history order last)
    (hstep : M.step last act last') (hinvoked : .invoked ticket request ∈ history)
    (hanswers : contract.answers request act response)
    (hnew : ∀ other, (some ticket, other) ∉ order)
    (hpending : ∀ response, .responded ticket response ∉ history) :
    Linearization M contract start history (order ++ [(some ticket, act)]) last' := by
  have hmem : ∀ {other action}, (some other, action) ∈ order ++ [(some ticket, act)] →
      (some other, action) ∈ order ∨ other = ticket ∧ action = act := by
    intro other action hmem
    rcases List.mem_append.mp hmem with hmem | hmem
    · exact .inl hmem
    · cases List.mem_singleton.mp hmem
      exact .inr ⟨rfl, rfl⟩
  refine ⟨?_, ?_, ?_, ?_, ?_, ?_⟩
  · rw [List.map_append]
    exact h.legal.snoc hstep
  · have hnot : ticket ∉ order.filterMap Prod.fst := by
      intro hticket
      obtain ⟨⟨who, other⟩, hother, hwho⟩ := List.mem_filterMap.mp hticket
      cases hwho
      exact hnew other hother
    rw [List.filterMap_append]
    refine List.nodup_append.mpr ⟨h.once, List.nodup_singleton ticket, ?_⟩
    intro first hfirst second hsecond heq
    rw [List.mem_singleton.mp hsecond] at heq
    exact hnot (heq ▸ hfirst)
  · intro other action hother
    rcases hmem hother with hother | ⟨rfl, rfl⟩
    · exact h.asked other action hother
    · exact ⟨request, response, hinvoked, hanswers⟩
  · intro action haction
    rcases List.mem_append.mp haction with haction | haction
    · exact h.others action haction
    · cases List.mem_singleton.mp haction
  · intro other asked answer hasked hanswered
    rcases h.answered other asked answer hasked hanswered with
      ⟨haside, hnone⟩ | ⟨action, haction, hserved⟩
    · refine .inl ⟨haside, fun action haction => ?_⟩
      rcases hmem haction with haction | ⟨rfl, -⟩
      · exact hnone action haction
      · exact hpending answer hanswered
    · exact .inr ⟨action, List.mem_append_left _ haction, hserved⟩
  · intro first second action action' hprecedes hfirst hsecond
    rcases hmem hfirst with hbefore | ⟨rfl, -⟩
    · rcases hmem hsecond with hbefore' | ⟨rfl, rfl⟩
      · exact (h.realTime first second action action' hprecedes hbefore hbefore').trans
          (List.sublist_append_left _ _)
      · exact (List.singleton_sublist.mpr hbefore).append (List.Sublist.refl [_])
    · obtain ⟨answer, hanswered⟩ := hprecedes.responded
      exact absurd hanswered (hpending answer)

/-- A request is made. -/
theorem Linearization.request_made (h : Linearization M contract start history order last)
    (hfresh : ∀ other, .invoked ticket other ∉ history)
    (hpending : ∀ response, .responded ticket response ∉ history) :
    Linearization M contract start (history ++ [.invoked ticket request]) order last := by
  refine ⟨h.legal, h.once, ?_, h.others, ?_, ?_⟩
  · intro other action hother
    obtain ⟨asked, answer, hasked, hanswers⟩ := h.asked other action hother
    exact ⟨asked, answer, List.mem_append_left _ hasked, hanswers⟩
  · intro other asked answer hasked hanswered
    rcases List.mem_append.mp hanswered with hanswered | hanswered
    · rcases List.mem_append.mp hasked with hasked | hasked
      · exact h.answered other asked answer hasked hanswered
      · cases List.mem_singleton.mp hasked
        exact absurd hanswered (hpending answer)
    · cases List.mem_singleton.mp hanswered
  · intro first second action action' hprecedes hfirst hsecond
    rcases hprecedes.of_snoc with hprecedes | ⟨-, asked, heq⟩
    · exact h.realTime first second action action' hprecedes hfirst hsecond
    · cases heq
      obtain ⟨other, answer, hother, -⟩ := h.asked ticket action' hsecond
      exact absurd hother (hfresh other)

/-- A request is answered. -/
theorem Linearization.request_answered (h : Linearization M contract start history order last)
    (hanswer : ∀ request, .invoked ticket request ∈ history →
      (contract.aside request response ∧ ∀ act, (some ticket, act) ∉ order) ∨
        ∃ act, (some ticket, act) ∈ order ∧ contract.answers request act response) :
    Linearization M contract start (history ++ [.responded ticket response]) order last := by
  have hinvoked : ∀ {other : Nat} {asked : Request},
      Seen.invoked other asked ∈ history ++ [.responded ticket response] →
      Seen.invoked other asked ∈ history := by
    intro other asked hasked
    rcases List.mem_append.mp hasked with hasked | hasked
    · exact hasked
    · cases List.mem_singleton.mp hasked
  refine ⟨h.legal, h.once, ?_, h.others, ?_, ?_⟩
  · intro other action hother
    obtain ⟨asked, answer, hasked, hanswers⟩ := h.asked other action hother
    exact ⟨asked, answer, List.mem_append_left _ hasked, hanswers⟩
  · intro other asked answer hasked hanswered
    rcases List.mem_append.mp hanswered with hanswered | hanswered
    · exact h.answered other asked answer (hinvoked hasked) hanswered
    · cases List.mem_singleton.mp hanswered
      exact hanswer asked (hinvoked hasked)
  · intro first second action action' hprecedes hfirst hsecond
    rcases hprecedes.of_snoc with hprecedes | ⟨-, asked, heq⟩
    · exact h.realTime first second action action' hprecedes hfirst hsecond
    · cases heq

/-- Two members of a list without duplicates stand in one order. -/
theorem not_sublist_of_sublist {α : Type} {list : List α} {a b : α} (hnodup : list.Nodup)
    (h : [a, b].Sublist list) : ¬[b, a].Sublist list := by
  induction list with
  | nil => cases h
  | cons head tail ih =>
    obtain ⟨hhead, htail⟩ := List.nodup_cons.mp hnodup
    intro h'
    rcases List.sublist_cons_iff.mp h with hin | ⟨rest, heq, hrest⟩
    · rcases List.sublist_cons_iff.mp h' with hin' | ⟨rest', heq', hrest'⟩
      · exact ih htail hin hin'
      · cases heq'
        exact hhead (hin.subset (List.mem_cons_of_mem _ List.mem_cons_self))
    · cases heq
      rcases List.sublist_cons_iff.mp h' with hin' | ⟨rest', heq', hrest'⟩
      · exact hhead (hin'.subset (List.mem_cons_of_mem _ List.mem_cons_self))
      · cases heq'
        exact hhead (hrest.subset List.mem_cons_self)

/-- Of two requests, the one that was answered before the other was made acts first. What is done
    between them was not asked for and answered before the first one was made. -/
theorem Linearization.ordered (h : Linearization M contract start history order last)
    {first second : Nat} {act' : Act} (hprecedes : Precedes history first second)
    (hfirst : (some first, act) ∈ order) (hsecond : (some second, act') ∈ order) :
    ∃ a a' b b' before between, M.Trace start before a ∧ M.step a act a' ∧
      M.Trace a' between b ∧ M.step b act' b' ∧
      (∀ action ∈ before ++ between, ∃ who, (who, action) ∈ order) ∧
      ∀ action ∈ between, ∃ who, (who, action) ∈ order ∧
        ∀ third, who = some third → ¬Precedes history third first := by
  obtain ⟨upTo, rest, horder, hmem, hsub⟩ :=
    List.cons_sublist_iff.mp (h.realTime first second act act' hprecedes hfirst hsecond)
  obtain ⟨before, other, rfl⟩ := List.append_of_mem hmem
  obtain ⟨between, after, rfl⟩ := List.append_of_mem (List.singleton_sublist.mp hsub)
  have hlegal := h.legal
  rw [horder, List.append_assoc, List.cons_append, List.map_append, List.map_cons] at hlegal
  obtain ⟨a, a', hbefore, hstep, hrest⟩ := hlegal.at
  rw [← List.append_assoc, List.map_append, List.map_cons] at hrest
  obtain ⟨b, b', hbetween, hstep', -⟩ := hrest.at
  refine ⟨a, a', b, b', _, _, hbefore, hstep, hbetween, hstep', fun action haction => ?_,
    fun action haction => ?_⟩
  · rw [← List.map_append] at haction
    obtain ⟨⟨who, taken⟩, htaken, rfl⟩ := List.mem_map.mp haction
    refine ⟨who, ?_⟩
    rw [horder]
    simp only [List.mem_append, List.mem_cons] at htaken ⊢
    tauto
  · obtain ⟨⟨who, taken⟩, htaken, rfl⟩ := List.mem_map.mp haction
    have hrest : (who, taken) ∈ other ++ (between ++ (some second, act') :: after) := by
      rw [← List.append_assoc]
      exact List.mem_append_left _ htaken
    refine ⟨who, ?_, ?_⟩
    · rw [horder, List.append_assoc]
      exact List.mem_append_right _ (List.mem_cons_of_mem _ hrest)
    rintro third rfl hthird
    have hlater : [(some first, act), (some third, taken)].Sublist order := by
      rw [horder, List.append_assoc]
      refine List.Sublist.trans ?_ (List.sublist_append_right _ _)
      exact (List.singleton_sublist.mpr hrest).cons_cons _
    have hmem : (some third, taken) ∈ order := hlater.subset (by simp)
    have hearlier := (h.realTime third first taken act hthird hmem hfirst).filterMap Prod.fst
    exact not_sublist_of_sublist h.once (hlater.filterMap Prod.fst) hearlier

end Steps

namespace Serving

/-- The requests are served as a machine does it: every program does at most one action, and every
    step is one of the machine, or none. -/
structure Implements (S : Serving Request Response Op Answer W) (M : Machine Act A)
    (contract : Contract Request Response Act) (meaning : Meaning Op Answer Act)
    (related : W → A → Prop) : Prop where
  atomic : ∀ request, Atomic meaning contract request (S.main request)
  exec : ∀ {world op answer world' a}, S.exec world op answer world' → related world a →
    ∃ meant, meaning op answer meant ∧ Simulated M related a world' meant
  others : ∀ {world world' a}, S.others world world' → related world a →
    ∃ meant, Simulated M related a world' meant ∧ ∀ act ∈ meant, contract.others act
  crash : ∀ {world world' a}, S.crash world world' → related world a → related world' a

section Runs

variable {S : Serving Request Response Op Answer W} {M : Machine Act A}
  {contract : Contract Request Response Act} {meaning : Meaning Op Answer Act}
  {related : W → A → Prop} {start : A} {c c' : State Request Response Op Answer W}

/-- What a request in progress has done. -/
inductive Progress (meaning : Meaning Op Answer Act) (contract : Contract Request Response Act)
    (request : Request) (order : List (Option Nat × Act)) (ticket : Nat)
    (program : Program Op Answer Response) : Prop where
  | waiting : Atomic meaning contract request program → (∀ act, (some ticket, act) ∉ order) →
      Progress meaning contract request order ticket program
  | settled {act} : (some ticket, act) ∈ order → Settled meaning contract request act program →
      Progress meaning contract request order ticket program

/-- The invariant: the history so far is linearizable, and every request in progress can go on. -/
structure Linear (M : Machine Act A) (contract : Contract Request Response Act)
    (meaning : Meaning Op Answer Act) (related : W → A → Prop) (start : A)
    (c : State Request Response Op Answer W) (order : List (Option Nat × Act)) (last : A) :
    Prop where
  linearization : Linearization M contract start c.history order last
  related : related c.world last
  asked : ∀ {ticket response}, .responded ticket response ∈ c.history →
    ∃ request, .invoked ticket request ∈ c.history
  once : ∀ {ticket request other}, .invoked ticket request ∈ c.history →
    .invoked ticket other ∈ c.history → request = other
  tasks : ∀ {ticket program}, c.task ticket = some program →
    (∀ response, .responded ticket response ∉ c.history) ∧
      ∃ request, .invoked ticket request ∈ c.history ∧
        Progress meaning contract request order ticket program

theorem Progress.mono {request : Request} {order : List (Option Nat × Act)} {ticket : Nat}
    {program : Program Op Answer Response} {who : Option Nat} {act : Act}
    (h : Progress meaning contract request order ticket program) (hother : who ≠ some ticket) :
    Progress meaning contract request (order ++ [(who, act)]) ticket program := by
  cases h with
  | waiting hatomic hnone =>
    refine .waiting hatomic fun other hmem => ?_
    rcases List.mem_append.mp hmem with hmem | hmem
    · exact hnone other hmem
    · cases List.mem_singleton.mp hmem
      exact hother rfl
  | settled hmem hsettled => exact .settled (List.mem_append_left _ hmem) hsettled

/-- Others take a step. -/
theorem Linear.others {order : List (Option Nat × Act)} {last : A} {world' : W}
    (h : Linear M contract meaning related start c order last) {meant : Option Act}
    (hstep : Simulated M related last world' meant)
    (hothers : ∀ act ∈ meant, contract.others act) :
    ∃ order last,
      Linear M contract meaning related start { c with world := world' } order last := by
  cases hstep with
  | stutter hrelated => exact ⟨order, last, { h with related := hrelated }⟩
  | action hact hrelated =>
    refine ⟨_, _, { h with
      linearization := h.linearization.other_acts hact (hothers _ rfl)
      related := hrelated
      tasks := fun htask => ?_ }⟩
    obtain ⟨hpending, request, hinvoked, hprogress⟩ := h.tasks htask
    exact ⟨hpending, request, hinvoked, hprogress.mono fun heq => by cases heq⟩

/-- A request takes a step. -/
theorem Linear.perform {order : List (Option Nat × Act)} {last : A} {world' : W} {ticket : Nat}
    {op : Op} {next : Answer op → Program Op Answer Response} {answer : Answer op}
    (h : Linear M contract meaning related start c order last)
    (htask : c.task ticket = some (.call op next)) {meant : Option Act}
    (hmeant : meaning op answer meant) (hstep : Simulated M related last world' meant) :
    ∃ order last, Linear M contract meaning related start
      { c with world := world', task := Function.update c.task ticket (some (next answer)) }
      order last := by
  obtain ⟨hpending, request, hinvoked, hprogress⟩ := h.tasks htask
  have htasks : ∀ {order' : List (Option Nat × Act)},
      Progress meaning contract request order' ticket (next answer) →
      (∀ {other program}, other ≠ ticket → c.task other = some program → ∀ {asked : Request},
        Progress meaning contract asked order other program →
        Progress meaning contract asked order' other program) →
      ∀ {other program},
        Function.update c.task ticket (some (next answer)) other = some program →
        (∀ response, .responded other response ∉ c.history) ∧
          ∃ asked, .invoked other asked ∈ c.history ∧
            Progress meaning contract asked order' other program := by
    intro order' hown hothers other program hother
    by_cases heq : other = ticket
    · subst heq
      rw [Function.update_self] at hother
      cases hother
      exact ⟨hpending, request, hinvoked, hown⟩
    · rw [Function.update_of_ne heq] at hother
      obtain ⟨hopen, asked, hasked, hold⟩ := h.tasks hother
      exact ⟨hopen, asked, hasked, hothers heq hother hold⟩
  cases hstep with
  | stutter hrelated =>
    refine ⟨order, last, { h with related := hrelated, tasks := htasks ?_ fun _ _ => id }⟩
    cases hprogress with
    | waiting hatomic hnone => exact .waiting ((hatomic answer none hmeant).1 rfl) hnone
    | settled hmem hsettled => exact .settled hmem (hsettled answer none hmeant).2
  | @action act after hact hrelated =>
    cases hprogress with
    | waiting hatomic hnone =>
      obtain ⟨⟨response, hanswers⟩, hsettled⟩ := (hatomic answer (some act) hmeant).2 act rfl
      refine ⟨_, _, { h with
        linearization :=
          h.linearization.request_acts hact hinvoked hanswers hnone hpending
        related := hrelated
        tasks := htasks
          (.settled (List.mem_append_right _ List.mem_cons_self) hsettled)
          fun hne _ _ hold => hold.mono fun heq => hne (Option.some.inj heq).symm }⟩
    | settled _ hsettled =>
      have habsurd := (hsettled answer (some act) hmeant).1
      cases habsurd

/-- Requests are abandoned. -/
theorem Linear.abandon {order : List (Option Nat × Act)} {last : A} {world' : W}
    {task' : Nat → Option (Program Op Answer Response)}
    (h : Linear M contract meaning related start c order last) (hrelated : related world' last)
    (htask : ∀ ticket program, task' ticket = some program → c.task ticket = some program) :
    Linear M contract meaning related start { c with world := world', task := task' } order last :=
  { h with
    related := hrelated
    tasks := fun hsome => h.tasks (htask _ _ hsome) }

/-- A request is made. -/
theorem Linear.invoke {order : List (Option Nat × Act)} {last : A} {ticket : Nat}
    {request : Request} {program : Program Op Answer Response}
    (h : Linear M contract meaning related start c order last)
    (hfresh : ∀ other, .invoked ticket other ∉ c.history)
    (hatomic : Atomic meaning contract request program) :
    Linear M contract meaning related start
      { c with
        task := Function.update c.task ticket (some program)
        history := c.history ++ [.invoked ticket request] } order last := by
  have hpending : ∀ response, .responded ticket response ∉ c.history := by
    intro response hresponded
    obtain ⟨other, hother⟩ := h.asked hresponded
    exact hfresh other hother
  have hinvoked : ∀ {other : Nat} {asked : Request},
      .invoked other asked ∈ c.history ++ [Seen.invoked ticket request] →
      .invoked other asked ∈ c.history ∨ other = ticket ∧ asked = request := by
    intro other asked hmem
    rcases List.mem_append.mp hmem with hmem | hmem
    · exact .inl hmem
    · cases List.mem_singleton.mp hmem
      exact .inr ⟨rfl, rfl⟩
  have hresponded : ∀ {other : Nat} {response : Response},
      .responded other response ∈ c.history ++ [Seen.invoked ticket request] →
      .responded other response ∈ c.history := by
    intro other response hmem
    rcases List.mem_append.mp hmem with hmem | hmem
    · exact hmem
    · cases List.mem_singleton.mp hmem
  refine ⟨h.linearization.request_made hfresh hpending, h.related, ?_, ?_, ?_⟩
  · intro other response hmem
    obtain ⟨asked, hasked⟩ := h.asked (hresponded hmem)
    exact ⟨asked, List.mem_append_left _ hasked⟩
  · intro other first second hfirst hsecond
    rcases hinvoked hfirst with hbefore | ⟨rfl, rfl⟩
    · rcases hinvoked hsecond with hbefore' | ⟨heq, -⟩
      · exact h.once hbefore hbefore'
      · exact absurd (heq ▸ hbefore) (hfresh first)
    · rcases hinvoked hsecond with hbefore' | ⟨-, heq⟩
      · exact absurd hbefore' (hfresh second)
      · exact heq.symm
  · intro other started htask
    change Function.update c.task ticket (some program) other = some started at htask
    by_cases heq : other = ticket
    · subst heq
      rw [Function.update_self] at htask
      cases htask
      refine ⟨fun response hmem => hpending response (hresponded hmem), request,
        List.mem_append_right _ List.mem_cons_self, .waiting hatomic fun act hmem => ?_⟩
      obtain ⟨asked, answer, hasked, -⟩ := h.linearization.asked other act hmem
      exact hfresh asked hasked
    · rw [Function.update_of_ne heq] at htask
      obtain ⟨hopen, asked, hasked, hprogress⟩ := h.tasks htask
      exact ⟨fun response hmem => hopen response (hresponded hmem), asked,
        List.mem_append_left _ hasked, hprogress⟩

/-- A request is answered. -/
theorem Linear.respond {order : List (Option Nat × Act)} {last : A} {ticket : Nat}
    {response : Response} (h : Linear M contract meaning related start c order last)
    (htask : c.task ticket = some (.done response)) :
    Linear M contract meaning related start
      { c with
        task := Function.update c.task ticket none
        history := c.history ++ [.responded ticket response] } order last := by
  obtain ⟨hpending, request, hasked, hprogress⟩ := h.tasks htask
  have hinvoked : ∀ {other : Nat} {asked : Request},
      .invoked other asked ∈ c.history ++ [Seen.responded ticket response] →
      .invoked other asked ∈ c.history := by
    intro other asked hmem
    rcases List.mem_append.mp hmem with hmem | hmem
    · exact hmem
    · cases List.mem_singleton.mp hmem
  refine ⟨h.linearization.request_answered ?_, h.related, ?_, ?_, ?_⟩
  · intro asked hmem
    obtain rfl := h.once hasked hmem
    cases hprogress with
    | waiting haside hnone => exact .inl ⟨haside, hnone⟩
    | settled hacted hanswers => exact .inr ⟨_, hacted, hanswers⟩
  · intro other answer hmem
    rcases List.mem_append.mp hmem with hmem | hmem
    · obtain ⟨asked, hinvoked⟩ := h.asked hmem
      exact ⟨asked, List.mem_append_left _ hinvoked⟩
    · cases List.mem_singleton.mp hmem
      exact ⟨request, List.mem_append_left _ hasked⟩
  · intro other first second hfirst hsecond
    exact h.once (hinvoked hfirst) (hinvoked hsecond)
  · intro other program hother
    change Function.update c.task ticket none other = some program at hother
    by_cases heq : other = ticket
    · rw [heq, Function.update_self] at hother
      cases hother
    · rw [Function.update_of_ne heq] at hother
      obtain ⟨hopen, asked, hinvoked, hprogress⟩ := h.tasks hother
      refine ⟨fun answer hmem => ?_, asked, List.mem_append_left _ hinvoked, hprogress⟩
      rcases List.mem_append.mp hmem with hmem | hmem
      · exact hopen answer hmem
      · cases List.mem_singleton.mp hmem
        exact heq rfl

/-- What one step keeps. -/
theorem Linear.step {order : List (Option Nat × Act)} {last : A}
    (h : Linear M contract meaning related start c order last)
    (himplements : S.Implements M contract meaning related) (hstep : S.Step c c') :
    ∃ order last, Linear M contract meaning related start c' order last := by
  cases hstep with
  | others hothers =>
    obtain ⟨meant, hsimulated, hact⟩ := himplements.others hothers h.related
    exact h.others hsimulated hact
  | invoke request hfresh => exact ⟨_, _, h.invoke hfresh (himplements.atomic request)⟩
  | perform htask hexec =>
    obtain ⟨meant, hmeant, hsimulated⟩ := himplements.exec hexec h.related
    exact h.perform htask hmeant hsimulated
  | respond htask => exact ⟨_, _, h.respond htask⟩
  | abandon ticket =>
    refine ⟨_, _, h.abandon h.related fun other program htask => ?_⟩
    by_cases heq : other = ticket
    · rw [heq, Function.update_self] at htask
      cases htask
    · rwa [Function.update_of_ne heq] at htask
  | crash hcrash =>
    exact ⟨_, _, h.abandon (himplements.crash hcrash h.related) fun _ _ htask => by cases htask⟩

/-- What a run keeps: its history is linearizable. -/
theorem Reach.linear {world : W} (h : S.Reach (.idle world) c)
    (himplements : S.Implements M contract meaning related) (hstart : related world start) :
    ∃ order last, Linear M contract meaning related start c order last := by
  induction h with
  | refl =>
    refine ⟨[], start, ⟨⟨.nil, List.nodup_nil, ?_, ?_, ?_, ?_⟩, hstart, ?_, ?_, ?_⟩⟩
    · intro ticket act hmem
      cases hmem
    · intro act hmem
      cases hmem
    · intro ticket request response hmem
      cases hmem
    · intro first second act act' _ hmem
      cases hmem
    · intro ticket response hmem
      cases hmem
    · intro ticket request other hmem
      cases hmem
    · intro ticket program htask
      cases htask
  | tail _ hstep ih =>
    obtain ⟨order, last, hlinear⟩ := ih
    exact hlinear.step himplements hstep

end Runs

end Serving

end ControlPlane.Interaction
