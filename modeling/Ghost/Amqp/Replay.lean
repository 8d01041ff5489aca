import Ghost.Amqp.Broker
import Ghost.Store.Registry

/-!
# Replaying declarations

The exchanges and the queues of a broker are registries, and neither depends on
the other. A history of declarations can therefore be replayed kind by kind on an
empty broker, exchanges before queues before bindings, and leads to what the
history has declared.
-/

namespace Amqp
open Registry

theorem Table.same_iff {a b : Table} : a.same b = true ↔ a.get = b.get := by
  constructor
  · intro h
    exact funext (Table.same_get h)
  · intro h
    simp [Table.same, h]

/-! ### The registries of a broker -/

-- flags and arguments, the latter as a map
def Exchange.params (e : Exchange) : String × Bool × Bool × Bool × (String → Option Value) :=
  (e.kind, e.durable, e.autoDelete, e.internal, e.args.get)

def Queue.params (q : Queue) : Bool × Bool × Bool × (String → Option Value) :=
  (q.durable, q.autoDelete, q.exclusive, q.args.get)

namespace Broker

def exchangeView (b : Broker) (name : String) : Option (String × Bool × Bool × Bool × (String → Option Value)) :=
  (b.findExchange name).map Exchange.params

def queueView (b : Broker) (name : String) : Option (Bool × Bool × Bool × (String → Option Value)) :=
  (b.findQueue name).map Queue.params

def FreshExchange (name : String) (p : String × Bool × Bool × Bool × (String → Option Value)) : Prop :=
  reserved name = false ∧ p.1 ∈ ["direct", "fanout", "topic", "headers"]

def FreshQueue (name : String) (_ : Bool × Bool × Bool × (String → Option Value)) : Prop := reserved name = false

-- One more entry at the end of a list that has none of its name.
theorem find?_append_named {α P : Type*} (name : α → String) (params : α → P) (xs : List α) (x : α)
    (h : xs.find? (fun y => name y == name x) = none) :
    (fun n => ((xs ++ [x]).find? fun y => name y == n).map params) =
      Function.update (fun n => (xs.find? fun y => name y == n).map params) (name x) (some (params x)) := by
  funext n
  by_cases hn : n = name x
  · subst hn
    rw [Function.update_self, List.find?_append, h]
    simp
  · have hx : (name x == n) = false := beq_false_of_ne (Ne.symm hn)
    rw [Function.update_of_ne hn, List.find?_append]
    simp [hx]

theorem exchangeDeclare_iff {b : Broker} {e : Exchange} :
    (∃ c, b.exchangeDeclare e = .ok c) ↔ e.name ≠ "" ∧ Takes FreshExchange b.exchangeView e.name e.params := by
  unfold exchangeDeclare Takes exchangeView
  by_cases hname : e.name = ""
  · simp [hname]
  · cases hfind : b.findExchange e.name with
    | some old =>
      simp only [hname, if_false, ne_eq, not_false_eq_true, true_and, Option.map_some, Exchange.params,
        Prod.mk.injEq, ← Table.same_iff]
      split
      · rename_i hsame
        simp [hsame]
      · rename_i hsame
        simp [hsame]
    | none =>
      simp only [hname, if_false, ne_eq, not_false_eq_true, true_and, Option.map_none, FreshExchange, Exchange.params]
      cases hreserved : reserved e.name with
      | true => simp
      | false =>
        simp only [Bool.false_eq_true, if_false, true_and]
        split
        · rename_i hkind
          simp [hkind]
        · rename_i hkind
          simp [hkind]

theorem exchangeDeclare_view {b c : Broker} {e : Exchange} (h : b.exchangeDeclare e = .ok c) :
    c.exchangeView = Function.update b.exchangeView e.name (some e.params) ∧ c.queues = b.queues ∧
      c.bindings = b.bindings := by
  have htakes := (exchangeDeclare_iff.mp ⟨c, h⟩).2
  cases (exchangeDeclare_cases h).2 with
  | same old hfind _ =>
    have hview : b.exchangeView e.name = some e.params := by
      simp only [Takes, exchangeView, hfind, Option.map_some] at htakes ⊢
      rw [htakes]
    rw [← hview, Function.update_eq_self]
    exact ⟨rfl, rfl, rfl⟩
  | added hfind => exact ⟨find?_append_named Exchange.name Exchange.params b.exchanges e hfind, rfl, rfl⟩

theorem queueDeclare_iff {b : Broker} {q : Queue} (hname : q.name ≠ "") :
    (∃ r, b.queueDeclare q = .ok r) ↔ validTTL q.args = true ∧ Takes FreshQueue b.queueView q.name q.params := by
  unfold queueDeclare Takes queueView
  cases httl : validTTL q.args with
  | false => simp
  | true =>
    cases hfind : b.findQueue q.name with
    | some old =>
      simp only [Bool.true_eq_false, if_false, hname, dite_false, true_and, Option.map_some, Queue.params,
        Prod.mk.injEq, ← Table.same_iff]
      split
      · rename_i hsame
        simp [hsame]
      · rename_i hsame
        simp [hsame]
    | none =>
      simp only [Bool.true_eq_false, if_false, hname, dite_false, true_and, Option.map_none, FreshQueue]
      cases hreserved : reserved q.name with
      | true => simp
      | false => simp

theorem queueDeclare_view {b c : Broker} {q : Queue} {name : String} (hname : q.name ≠ "")
    (h : b.queueDeclare q = .ok (name, c)) :
    c.queueView = Function.update b.queueView q.name (some q.params) ∧ c.exchanges = b.exchanges ∧
      c.bindings = b.bindings := by
  have htakes := ((queueDeclare_iff hname).mp ⟨_, h⟩).2
  cases (queueDeclare_cases h).2 with
  | generated hnone => exact absurd hnone hname
  | same old hfind _ =>
    have hview : b.queueView q.name = some q.params := by
      simp only [Takes, queueView, hfind, Option.map_some] at htakes ⊢
      rw [htakes]
    rw [← hview, Function.update_eq_self]
    exact ⟨rfl, rfl, rfl⟩
  | added _ hfind => exact ⟨find?_append_named Queue.name Queue.params b.queues q hfind, rfl, rfl⟩

theorem queueBind_iff {b : Broker} {x : Binding} :
    (∃ c, b.queueBind x = .ok c) ↔
      x.exchange ≠ "" ∧ b.exchangeView x.exchange ≠ none ∧ b.queueView x.queue ≠ none := by
  unfold queueBind exchangeView queueView
  split
  · rename_i hname
    simp [hname]
  · rename_i hname
    split
    · rename_i hexchange
      simp [hexchange]
    · rename_i hexchange
      split
      · rename_i hqueue
        simp [hqueue]
      · rename_i hqueue
        split <;> simp [hname, hexchange, hqueue]

theorem queueBind_bindings {b c : Broker} {x : Binding} (h : b.queueBind x = .ok c) :
    c.exchanges = b.exchanges ∧ c.queues = b.queues ∧ ∀ y, y ∈ c.bindings ↔ y ∈ b.bindings ∨ y = x := by
  cases queueBind_cases h with
  | same hmem =>
    refine ⟨rfl, rfl, fun y => ⟨.inl, ?_⟩⟩
    rintro (hy | rfl)
    · exact hy
    · exact hmem
  | added => exact ⟨rfl, rfl, fun y => by simp⟩

end Broker

/-! ### Histories -/

inductive Decl where
  | exchange (e : Exchange)
  | queue (q : Queue)
  | binding (x : Binding)

namespace Broker

def declare (b : Broker) : Decl → Except Go.Error Broker
  | .exchange e => b.exchangeDeclare e
  | .queue q => (b.queueDeclare q).map Prod.snd
  | .binding x => b.queueBind x

def declareAll (b : Broker) : List Decl → Except Go.Error Broker
  | [] => .ok b
  | d :: ds =>
    match b.declare d with
    | .error e => .error e
    | .ok c => c.declareAll ds

def exchangeItem : Decl → Option (String × String × Bool × Bool × Bool × (String → Option Value))
  | .exchange e => some (e.name, e.params)
  | _ => none

def queueItem : Decl → Option (String × Bool × Bool × Bool × (String → Option Value))
  | .queue q => some (q.name, q.params)
  | _ => none

def isBinding : Decl → Bool
  | .binding _ => true
  | _ => false

/-- Exchanges, then queues, then bindings, each in the order of the history. -/
def byKind (ds : List Decl) : List Decl :=
  ds.filter (fun d => (exchangeItem d).isSome) ++
    (ds.filter (fun d => (queueItem d).isSome) ++ ds.filter isBinding)

/-- What is there may be declared by name on an empty broker: no predeclared exchange
and no queue that the broker has named itself. -/
structure Plain (b : Broker) : Prop where
  exchange : ∀ name p, b.exchangeView name = some p → FreshExchange name p
  queue : ∀ name p, b.queueView name = some p → FreshQueue name p

theorem plain_empty : empty.Plain := ⟨nofun, nofun⟩

section Histories

variable {b c r u : Broker} {d : Decl} {ds : List Decl}

theorem declareAll_cons :
    b.declareAll (d :: ds) = .ok c ↔ ∃ a, b.declare d = .ok a ∧ a.declareAll ds = .ok c := by
  simp only [declareAll]
  cases b.declare d <;> simp

theorem declareAll_append {es : List Decl} (h : b.declareAll ds = .ok c) :
    b.declareAll (ds ++ es) = c.declareAll es := by
  induction ds generalizing b with
  | nil =>
    cases h
    rfl
  | cons d ds ih =>
    obtain ⟨a, ha, hrest⟩ := declareAll_cons.mp h
    simp only [List.cons_append, declareAll, ha]
    exact ih hrest

theorem declare_queue {q : Queue} :
    b.declare (.queue q) = .ok c ↔ ∃ name, b.queueDeclare q = .ok (name, c) := by
  simp only [declare]
  cases b.queueDeclare q with
  | error e => simp [Except.map]
  | ok r => simp [Except.map, Prod.ext_iff]

theorem exchangeView_congr (h : b.exchanges = c.exchanges) : b.exchangeView = c.exchangeView := by
  funext n
  rw [exchangeView, findExchange, h]
  rfl

theorem queueView_congr (h : b.queues = c.queues) : b.queueView = c.queueView := by
  funext n
  rw [queueView, findQueue, h]
  rfl

/- What one declaration does to the two registries. -/
theorem declare_views (hnamed : ∀ q, d = .queue q → q.name ≠ "") (h : b.declare d = .ok c) :
    c.exchangeView = register b.exchangeView (exchangeItem d).toList ∧
      c.queueView = register b.queueView (queueItem d).toList := by
  cases d with
  | exchange e =>
    obtain ⟨hview, hqueues, -⟩ := exchangeDeclare_view h
    exact ⟨hview, queueView_congr hqueues⟩
  | queue q =>
    obtain ⟨name, hq⟩ := declare_queue.mp h
    obtain ⟨hview, hexchanges, -⟩ := queueDeclare_view (hnamed q rfl) hq
    exact ⟨exchangeView_congr hexchanges, hview⟩
  | binding x =>
    obtain ⟨hexchanges, hqueues, -⟩ := queueBind_bindings h
    exact ⟨exchangeView_congr hexchanges, queueView_congr hqueues⟩

theorem declareAll_views (hnamed : ∀ q, Decl.queue q ∈ ds → q.name ≠ "") (h : b.declareAll ds = .ok c) :
    c.exchangeView = register b.exchangeView (ds.filterMap exchangeItem) ∧
      c.queueView = register b.queueView (ds.filterMap queueItem) := by
  induction ds generalizing b with
  | nil =>
    cases h
    exact ⟨rfl, rfl⟩
  | cons d ds ih =>
    obtain ⟨a, ha, hrest⟩ := declareAll_cons.mp h
    obtain ⟨hexchange, hqueue⟩ := declare_views (fun q hq => hnamed q (hq ▸ List.mem_cons_self)) ha
    obtain ⟨hexchanges, hqueues⟩ := ih (fun q hq => hnamed q (List.mem_cons_of_mem d hq)) hrest
    rw [hexchanges, hqueues, hexchange, hqueue]
    cases d <;> exact ⟨rfl, rfl⟩

theorem declareAll_exchanges_accepted (hnamed : ∀ q, Decl.queue q ∈ ds → q.name ≠ "")
    (h : b.declareAll ds = .ok c) :
    (∀ e, Decl.exchange e ∈ ds → e.name ≠ "") ∧ Accepts FreshExchange b.exchangeView (ds.filterMap exchangeItem) := by
  induction ds generalizing b with
  | nil => exact ⟨nofun, trivial⟩
  | cons d ds ih =>
    obtain ⟨a, ha, hrest⟩ := declareAll_cons.mp h
    obtain ⟨hview, -⟩ := declare_views (fun q hq => hnamed q (hq ▸ List.mem_cons_self)) ha
    obtain ⟨hnames, haccepts⟩ := ih (fun q hq => hnamed q (List.mem_cons_of_mem d hq)) hrest
    rw [hview] at haccepts
    cases d with
    | exchange e =>
      obtain ⟨hname, htakes⟩ := exchangeDeclare_iff.mp ⟨a, ha⟩
      refine ⟨?_, htakes, haccepts⟩
      intro e' he'
      rcases List.mem_cons.mp he' with he' | he'
      · cases he'
        exact hname
      · exact hnames e' he'
    | queue q => exact ⟨fun e he => hnames e (by simpa using he), haccepts⟩
    | binding x => exact ⟨fun e he => hnames e (by simpa using he), haccepts⟩

theorem declareAll_queues_accepted (hnamed : ∀ q, Decl.queue q ∈ ds → q.name ≠ "") (h : b.declareAll ds = .ok c) :
    (∀ q, Decl.queue q ∈ ds → validTTL q.args = true) ∧ Accepts FreshQueue b.queueView (ds.filterMap queueItem) := by
  induction ds generalizing b with
  | nil => exact ⟨nofun, trivial⟩
  | cons d ds ih =>
    obtain ⟨a, ha, hrest⟩ := declareAll_cons.mp h
    obtain ⟨-, hview⟩ := declare_views (fun q hq => hnamed q (hq ▸ List.mem_cons_self)) ha
    obtain ⟨hvalid, haccepts⟩ := ih (fun q hq => hnamed q (List.mem_cons_of_mem d hq)) hrest
    rw [hview] at haccepts
    cases d with
    | queue q =>
      obtain ⟨name, hq⟩ := declare_queue.mp ha
      obtain ⟨httl, htakes⟩ := (queueDeclare_iff (hnamed q List.mem_cons_self)).mp ⟨_, hq⟩
      refine ⟨?_, htakes, haccepts⟩
      intro q' hq'
      rcases List.mem_cons.mp hq' with hq' | hq'
      · cases hq'
        exact httl
      · exact hvalid q' hq'
    | exchange e => exact ⟨fun q hq => hvalid q (by simpa using hq), haccepts⟩
    | binding x => exact ⟨fun q hq => hvalid q (by simpa using hq), haccepts⟩

theorem declareAll_bindings (hnamed : ∀ q, Decl.queue q ∈ ds → q.name ≠ "") (h : b.declareAll ds = .ok c) :
    (∀ x, Decl.binding x ∈ ds → x.exchange ≠ "") ∧
      ∀ y, y ∈ c.bindings ↔ y ∈ b.bindings ∨ Decl.binding y ∈ ds := by
  induction ds generalizing b with
  | nil =>
    cases h
    exact ⟨nofun, fun y => by simp⟩
  | cons d ds ih =>
    obtain ⟨a, ha, hrest⟩ := declareAll_cons.mp h
    obtain ⟨hnames, hmem⟩ := ih (fun q hq => hnamed q (List.mem_cons_of_mem d hq)) hrest
    cases d with
    | exchange e =>
      obtain ⟨-, -, hbindings⟩ := exchangeDeclare_view ha
      rw [hbindings] at hmem
      exact ⟨fun x hx => hnames x (by simpa using hx), fun y => by simp [hmem]⟩
    | queue q =>
      obtain ⟨name, hq⟩ := declare_queue.mp ha
      obtain ⟨-, -, hbindings⟩ := queueDeclare_view (hnamed q List.mem_cons_self) hq
      rw [hbindings] at hmem
      exact ⟨fun x hx => hnames x (by simpa using hx), fun y => by simp [hmem]⟩
    | binding x =>
      obtain ⟨hname, -⟩ := queueBind_iff.mp ⟨a, ha⟩
      obtain ⟨-, -, hadd⟩ := queueBind_bindings ha
      refine ⟨?_, fun y => ?_⟩
      · intro y hy
        rcases List.mem_cons.mp hy with hy | hy
        · cases hy
          exact hname
        · exact hnames y hy
      · rw [hmem, hadd, List.mem_cons, Decl.binding.injEq, or_assoc]

/- At the end of a history every declaration in it still stands. -/
theorem declareAll_exchange {e : Exchange} (hnamed : ∀ q, Decl.queue q ∈ ds → q.name ≠ "")
    (h : b.declareAll ds = .ok c) (he : Decl.exchange e ∈ ds) :
    e.name ≠ "" ∧ ∃ x, c.findExchange e.name = some x ∧ x.params = e.params := by
  obtain ⟨hnames, haccepts⟩ := declareAll_exchanges_accepted hnamed h
  have hview := haccepts.register_eq (List.mem_filterMap.mpr ⟨_, he, rfl⟩)
  rw [← (declareAll_views hnamed h).1] at hview
  exact ⟨hnames e he, Option.map_eq_some_iff.mp hview⟩

theorem declareAll_queue {q : Queue} (hnamed : ∀ q, Decl.queue q ∈ ds → q.name ≠ "") (h : b.declareAll ds = .ok c)
    (hq : Decl.queue q ∈ ds) : ∃ x, c.findQueue q.name = some x ∧ x.params = q.params := by
  obtain ⟨-, haccepts⟩ := declareAll_queues_accepted hnamed h
  have hview := haccepts.register_eq (List.mem_filterMap.mpr ⟨_, hq, rfl⟩)
  rw [← (declareAll_views hnamed h).2] at hview
  exact Option.map_eq_some_iff.mp hview

/-! ### Kind by kind -/

theorem exchanges_declared (hnames : ∀ e, Decl.exchange e ∈ ds → e.name ≠ "")
    (h : Accepts FreshExchange r.exchangeView (ds.filterMap exchangeItem)) :
    ∃ u, r.declareAll (ds.filter fun d => (exchangeItem d).isSome) = .ok u := by
  induction ds generalizing r with
  | nil => exact ⟨r, rfl⟩
  | cons d ds ih =>
    have hnames' : ∀ e, Decl.exchange e ∈ ds → e.name ≠ "" := fun e he => hnames e (List.mem_cons_of_mem d he)
    cases d with
    | exchange e =>
      obtain ⟨htakes, hrest⟩ := h
      obtain ⟨a, ha⟩ := exchangeDeclare_iff.mpr ⟨hnames e List.mem_cons_self, htakes⟩
      rw [← (exchangeDeclare_view ha).1] at hrest
      obtain ⟨u, hu⟩ := ih hnames' hrest
      exact ⟨u, declareAll_cons.mpr ⟨a, ha, hu⟩⟩
    | queue q => exact ih hnames' h
    | binding x => exact ih hnames' h

theorem queues_declared (hnamed : ∀ q, Decl.queue q ∈ ds → q.name ≠ "")
    (hvalid : ∀ q, Decl.queue q ∈ ds → validTTL q.args = true)
    (h : Accepts FreshQueue r.queueView (ds.filterMap queueItem)) :
    ∃ u, r.declareAll (ds.filter fun d => (queueItem d).isSome) = .ok u := by
  induction ds generalizing r with
  | nil => exact ⟨r, rfl⟩
  | cons d ds ih =>
    have hnamed' : ∀ q, Decl.queue q ∈ ds → q.name ≠ "" := fun q hq => hnamed q (List.mem_cons_of_mem d hq)
    have hvalid' : ∀ q, Decl.queue q ∈ ds → validTTL q.args = true :=
      fun q hq => hvalid q (List.mem_cons_of_mem d hq)
    cases d with
    | queue q =>
      obtain ⟨htakes, hrest⟩ := h
      have hname := hnamed q List.mem_cons_self
      obtain ⟨⟨name, a⟩, ha⟩ := (queueDeclare_iff hname).mpr ⟨hvalid q List.mem_cons_self, htakes⟩
      rw [← (queueDeclare_view hname ha).1] at hrest
      obtain ⟨u, hu⟩ := ih hnamed' hvalid' hrest
      exact ⟨u, declareAll_cons.mpr ⟨a, declare_queue.mpr ⟨name, ha⟩, hu⟩⟩
    | exchange e => exact ih hnamed' hvalid' h
    | binding x => exact ih hnamed' hvalid' h

theorem bindings_declared (h : ∀ x, Decl.binding x ∈ ds →
      x.exchange ≠ "" ∧ r.exchangeView x.exchange ≠ none ∧ r.queueView x.queue ≠ none) :
    ∃ u, r.declareAll (ds.filter isBinding) = .ok u := by
  induction ds generalizing r with
  | nil => exact ⟨r, rfl⟩
  | cons d ds ih =>
    cases d with
    | binding x =>
      obtain ⟨a, ha⟩ := queueBind_iff.mpr (h x List.mem_cons_self)
      obtain ⟨hexchanges, hqueues, -⟩ := queueBind_bindings ha
      obtain ⟨u, hu⟩ := ih (r := a) fun y hy => by
        rw [exchangeView_congr hexchanges, queueView_congr hqueues]
        exact h y (List.mem_cons_of_mem _ hy)
      exact ⟨u, declareAll_cons.mpr ⟨a, ha, hu⟩⟩
    | exchange e => exact ih fun y hy => h y (List.mem_cons_of_mem _ hy)
    | queue q => exact ih fun y hy => h y (List.mem_cons_of_mem _ hy)

theorem mem_byKind : d ∈ byKind ds ↔ d ∈ ds := by
  cases d <;> simp [byKind, exchangeItem, queueItem, isBinding]

theorem filterMap_filter_nil {α β : Type*} {f : α → Option β} {p : α → Bool} (h : ∀ x, p x = true → f x = none)
    (xs : List α) : (xs.filter p).filterMap f = [] := by
  rw [List.filterMap_eq_nil_iff]
  intro x hx
  exact h x (List.mem_filter.mp hx).2

theorem filterMap_filter_isSome {α β : Type*} (f : α → Option β) (xs : List α) :
    (xs.filter fun x => (f x).isSome).filterMap f = xs.filterMap f := by
  rw [List.filterMap_filter]
  congr 1
  funext x
  cases f x <;> rfl

theorem items_byKind (ds : List Decl) :
    (byKind ds).filterMap exchangeItem = ds.filterMap exchangeItem ∧
      (byKind ds).filterMap queueItem = ds.filterMap queueItem := by
  simp only [byKind, List.filterMap_append, filterMap_filter_isSome]
  rw [filterMap_filter_nil (f := exchangeItem) (p := fun d => (queueItem d).isSome) (by intro d; cases d <;> simp [queueItem, exchangeItem]),
    filterMap_filter_nil (f := exchangeItem) (p := isBinding) (by intro d; cases d <;> simp [isBinding, exchangeItem]),
    filterMap_filter_nil (f := queueItem) (p := fun d => (exchangeItem d).isSome) (by intro d; cases d <;> simp [queueItem, exchangeItem]),
    filterMap_filter_nil (f := queueItem) (p := isBinding) (by intro d; cases d <;> simp [isBinding, queueItem])]
  simp

/-- A history whose bindings have both ends in it can be replayed kind by kind, and
leaves what the history has declared. -/
theorem byKind_replays (hplain : b.Plain) (hnamed : ∀ q, Decl.queue q ∈ ds → q.name ≠ "")
    (hends : ∀ x, Decl.binding x ∈ ds →
      (∃ e, Decl.exchange e ∈ ds ∧ e.name = x.exchange) ∧ ∃ q, Decl.queue q ∈ ds ∧ q.name = x.queue)
    (h : b.declareAll ds = .ok c) :
    ∃ u, empty.declareAll (byKind ds) = .ok u ∧
      Reproduces (fun n => ∃ p, (n, p) ∈ ds.filterMap exchangeItem) b.exchangeView c.exchangeView u.exchangeView ∧
      Reproduces (fun n => ∃ p, (n, p) ∈ ds.filterMap queueItem) b.queueView c.queueView u.queueView ∧
      (∀ y, y ∈ u.bindings ↔ Decl.binding y ∈ ds) ∧
      ∀ y, y ∈ c.bindings ↔ y ∈ b.bindings ∨ Decl.binding y ∈ ds := by
  obtain ⟨hnames, hexchanges⟩ := declareAll_exchanges_accepted hnamed h
  obtain ⟨hvalid, hqueues⟩ := declareAll_queues_accepted hnamed h
  obtain ⟨hbound, hbindings⟩ := declareAll_bindings hnamed h
  obtain ⟨hexchangeView, hqueueView⟩ := declareAll_views hnamed h
  have hsub : ∀ p, ∀ q, Decl.queue q ∈ ds.filter p → q.name ≠ "" :=
    fun p q hq => hnamed q (List.mem_filter.mp hq).1
  have hacceptsExchanges : Accepts FreshExchange empty.exchangeView (ds.filterMap exchangeItem) :=
    hexchanges.of_sub hplain.exchange nofun
  obtain ⟨u₁, hu₁⟩ := exchanges_declared hnames hacceptsExchanges
  obtain ⟨hexchangeView₁, hqueueView₁⟩ := declareAll_views (hsub _) hu₁
  have hacceptsQueues : Accepts FreshQueue u₁.queueView (ds.filterMap queueItem) := by
    rw [hqueueView₁, filterMap_filter_nil (by intro d; cases d <;> simp [queueItem, exchangeItem])]
    exact hqueues.of_sub hplain.queue nofun
  obtain ⟨u₂, hu₂⟩ := queues_declared hnamed hvalid hacceptsQueues
  obtain ⟨hexchangeView₂, hqueueView₂⟩ := declareAll_views (hsub _) hu₂
  have hpresent : ∀ x, Decl.binding x ∈ ds →
      x.exchange ≠ "" ∧ u₂.exchangeView x.exchange ≠ none ∧ u₂.queueView x.queue ≠ none := by
    intro x hx
    obtain ⟨⟨e, he, hename⟩, q, hq, hqname⟩ := hends x hx
    refine ⟨hbound x hx, ?_, ?_⟩
    · rw [hexchangeView₂, hexchangeView₁, filterMap_filter_isSome, ← hename]
      have hitem : (e.name, e.params) ∈ ds.filterMap exchangeItem := List.mem_filterMap.mpr ⟨_, he, rfl⟩
      exact register_ne_none (.inl (register_ne_none (.inr ⟨_, hitem⟩)))
    · rw [hqueueView₂, filterMap_filter_isSome, ← hqname]
      have hitem : (q.name, q.params) ∈ ds.filterMap queueItem := List.mem_filterMap.mpr ⟨_, hq, rfl⟩
      exact register_ne_none (.inr ⟨_, hitem⟩)
  obtain ⟨u, hu⟩ := bindings_declared hpresent
  have hall : empty.declareAll (byKind ds) = .ok u := by
    rw [byKind, declareAll_append hu₁, declareAll_append hu₂]
    exact hu
  have hnamedAll : ∀ q, Decl.queue q ∈ byKind ds → q.name ≠ "" := fun q hq => hnamed q (mem_byKind.mp hq)
  obtain ⟨hexchangeView', hqueueView'⟩ := declareAll_views hnamedAll hall
  obtain ⟨-, hbindings'⟩ := declareAll_bindings hnamedAll hall
  obtain ⟨hitems, hitems'⟩ := items_byKind ds
  refine ⟨u, hall, ?_, ?_, ?_, hbindings⟩
  · rw [hexchangeView, hexchangeView', hitems]
    exact register_reproduces b.exchangeView _
  · rw [hqueueView, hqueueView', hitems']
    exact register_reproduces b.queueView _
  · intro y
    rw [hbindings', mem_byKind]
    simp [empty]

end Histories

end Broker

end Amqp
