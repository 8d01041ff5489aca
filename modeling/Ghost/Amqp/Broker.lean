import Ghost.Amqp.Table
import Ghost.Go.Errors
import Mathlib.Data.List.Infix

/-!
# An AMQP 0-9-1 broker

The part of a broker that a declaration, a publication and a dead-lettering
see: exchanges, queues and bindings, the rules under which declaring and
binding succeed, and the queues a routing key leads to.
-/

namespace Amqp
open Go

/-! ### Topic patterns -/

/- The words of a routing key or binding key. The empty key has no words; two
dots in a row enclose an empty word. -/
def splitDots : List Char → List Char → List (List Char)
  | word, [] => [word.reverse]
  | word, c :: cs => if c = '.' then word.reverse :: splitDots [] cs else splitDots (c :: word) cs

def words (key : String) : List (List Char) :=
  if key.toList = [] then [] else splitDots [] key.toList

/-- `*` stands for exactly one word, `#` for any number of words. -/
def matchWords : List (List Char) → List (List Char) → Bool
  | [], ks => ks.isEmpty
  | p :: ps, ks =>
    if p = ['#'] then ks.tails.any (matchWords ps)
    else match ks with
      | [] => false
      | k :: ks => (p == ['*'] || p == k) && matchWords ps ks

def topicMatches (pattern key : String) : Bool := matchWords (words pattern) (words key)

theorem matchWords_self (ws : List (List Char)) : matchWords ws ws = true := by
  induction ws with
  | nil => rfl
  | cons w ws ih =>
    by_cases hw : w = ['#']
    · simp only [matchWords, hw, ite_true, List.any_eq_true]
      exact ⟨ws, by simp, ih⟩
    · simp [matchWords, hw, ih]

theorem topicMatches_self (key : String) : topicMatches key key = true :=
  matchWords_self (words key)

/-! A key in which no word is a wildcard matches itself only. -/

def Literal (ws : List (List Char)) : Prop := ∀ w ∈ ws, w ≠ ['*'] ∧ w ≠ ['#']

theorem matchWords_literal {ps ks : List (List Char)} (hp : Literal ps) (h : matchWords ps ks = true) :
    ps = ks := by
  induction ps generalizing ks with
  | nil =>
    simp only [matchWords, List.isEmpty_iff] at h
    exact h.symm
  | cons p ps ih =>
    obtain ⟨hstar, hhash⟩ := hp p List.mem_cons_self
    have hrest : Literal ps := fun w hw => hp w (List.mem_cons_of_mem p hw)
    simp only [matchWords, if_neg hhash] at h
    cases ks with
    | nil => cases h
    | cons k ks =>
      simp only [Bool.and_eq_true, Bool.or_eq_true, beq_iff_eq] at h
      obtain ⟨hword, htail⟩ := h
      rcases hword with hword | hword
      · exact absurd hword hstar
      · rw [hword, ih hrest htail]

theorem mem_splitDots {word cs w : List Char} {x : Char} (hw : w ∈ splitDots word cs) (hx : x ∈ w) :
    x ∈ word ∨ x ∈ cs := by
  induction cs generalizing word with
  | nil =>
    simp only [splitDots, List.mem_singleton] at hw
    left
    simpa [hw] using hx
  | cons c cs ih =>
    simp only [splitDots] at hw
    split at hw
    · rcases List.mem_cons.mp hw with rfl | hw
      · left
        simpa using hx
      · rcases ih hw with h | h
        · cases h
        · exact .inr (List.mem_cons_of_mem c h)
    · rcases ih hw with h | h
      · rcases List.mem_cons.mp h with rfl | h
        · exact .inr List.mem_cons_self
        · exact .inl h
      · exact .inr (List.mem_cons_of_mem c h)

theorem words_literal {key : String} (hstar : '*' ∉ key.toList) (hhash : '#' ∉ key.toList) :
    Literal (words key) := by
  have hchar : ∀ x, x ∉ key.toList → [x] ∉ words key := by
    intro x hx hmem
    unfold words at hmem
    split at hmem
    · cases hmem
    · rcases mem_splitDots hmem List.mem_cons_self with h | h
      · cases h
      · exact hx h
  intro w hw
  refine ⟨?_, ?_⟩
  · rintro rfl
    exact hchar '*' hstar hw
  · rintro rfl
    exact hchar '#' hhash hw

def joinDots : List (List Char) → List Char
  | [] => []
  | [w] => w
  | w :: v :: ws => w ++ '.' :: joinDots (v :: ws)

theorem splitDots_ne_nil (word cs : List Char) : splitDots word cs ≠ [] := by
  induction cs generalizing word with
  | nil => simp [splitDots]
  | cons c cs ih =>
    by_cases hc : c = '.'
    · simp [splitDots, hc]
    · simp only [splitDots, if_neg hc]
      exact ih _

theorem joinDots_splitDots (word cs : List Char) : joinDots (splitDots word cs) = word.reverse ++ cs := by
  induction cs generalizing word with
  | nil => simp [splitDots, joinDots]
  | cons c cs ih =>
    by_cases hc : c = '.'
    · obtain ⟨v, ws, hsplit⟩ := List.exists_cons_of_ne_nil (splitDots_ne_nil [] cs)
      have hrest := ih []
      rw [hsplit] at hrest
      simp only [splitDots, hc, if_true, hsplit, joinDots, hrest]
      rfl
    · simp only [splitDots, if_neg hc]
      rw [ih]
      simp

theorem words_injective : Function.Injective words := by
  have hjoin : ∀ key : String, joinDots (words key) = key.toList := by
    intro key
    unfold words
    split
    · rename_i hempty
      rw [hempty]
      rfl
    · rw [joinDots_splitDots]
      rfl
  intro a b h
  have hlist := congrArg joinDots h
  rw [hjoin, hjoin] at hlist
  exact String.toList_injective hlist

/-- A key without wildcards matches itself only. -/
theorem topicMatches_literal {pattern key : String} (hstar : '*' ∉ pattern.toList) (hhash : '#' ∉ pattern.toList)
    (h : topicMatches pattern key = true) : pattern = key :=
  words_injective (matchWords_literal (words_literal hstar hhash) h)

/-! ### Topology -/

structure Exchange where
  name : String
  kind : String
  durable : Bool
  autoDelete : Bool
  internal : Bool
  args : Table
  deriving DecidableEq, Repr

structure Queue where
  name : String
  durable : Bool
  autoDelete : Bool
  exclusive : Bool
  args : Table
  deriving DecidableEq, Repr

structure Binding where
  queue : String
  exchange : String
  key : String
  args : Table
  deriving DecidableEq, Repr

-- The empty name is the default exchange's, and no queue has it.
structure Broker where
  exchanges : List Exchange
  queues : List Queue
  bindings : List Binding
  generated : Nat
  named : ∀ q ∈ queues, q.name ≠ ""
  deriving DecidableEq

namespace Broker

def empty : Broker := ⟨[], [], [], 0, by simp⟩

def findExchange (b : Broker) (name : String) : Option Exchange :=
  b.exchanges.find? fun e => e.name == name

def findQueue (b : Broker) (name : String) : Option Queue := b.queues.find? fun q => q.name == name

def accessRefused (what : String) : Error := .new "403" ("ACCESS_REFUSED - " ++ what)
def notFound (what : String) : Error := .new "404" ("NOT_FOUND - " ++ what)
def preconditionFailed (what : String) : Error := .new "406" ("PRECONDITION_FAILED - " ++ what)
def commandInvalid (what : String) : Error := .new "503" ("COMMAND_INVALID - " ++ what)

def reserved (name : String) : Bool := "amq.".toList.isPrefixOf name.toList

-- Re-declaring with equal parameters changes nothing, with other parameters it fails.
def exchangeDeclare (b : Broker) (e : Exchange) : Except Error Broker :=
  if e.name = "" then .error (accessRefused "default exchange")
  else match b.findExchange e.name with
    | some old =>
      if old.kind = e.kind ∧ old.durable = e.durable ∧ old.autoDelete = e.autoDelete ∧
          old.internal = e.internal ∧ old.args.same e.args = true then .ok b
      else .error (preconditionFailed "inequivalent arg for exchange")
    | none =>
      if reserved e.name = true then .error (accessRefused "exchange name")
      else if e.kind ∈ ["direct", "fanout", "topic", "headers"] then
        .ok { b with exchanges := b.exchanges ++ [e] }
      else .error (commandInvalid "unknown exchange type")

/- `x-message-ttl` must be a non-negative integer below the broker's timer limit. -/
def validTTL (args : Table) : Bool :=
  match args.get "x-message-ttl" with
  | none => true
  | some (.int n) => decide (0 ≤ n) && decide (n ≤ 4294967295)
  | some _ => false

def addQueue (b : Broker) (q : Queue) (h : q.name ≠ "") : Broker where
  exchanges := b.exchanges
  queues := b.queues ++ [q]
  bindings := b.bindings
  generated := b.generated
  named := by
    intro x hx
    rcases List.mem_append.mp hx with hx | hx
    · exact b.named x hx
    · rw [List.mem_singleton.mp hx]
      exact h

def generatedName (n : Nat) : String := "amq.gen-" ++ toString n

theorem generatedName_ne (n : Nat) : generatedName n ≠ "" := by
  intro h
  have hl := congrArg String.length h
  rw [generatedName, String.length_append] at hl
  simp at hl

-- A queue declared without a name gets one from the broker.
def queueDeclare (b : Broker) (q : Queue) : Except Error (String × Broker) :=
  if validTTL q.args = false then .error (preconditionFailed "invalid arg x-message-ttl")
  else if hn : q.name = "" then
    let name := generatedName b.generated
    .ok (name, { b.addQueue { q with name := name } (generatedName_ne b.generated) with
      generated := b.generated + 1 })
  else match b.findQueue q.name with
    | some old =>
      if old.durable = q.durable ∧ old.autoDelete = q.autoDelete ∧ old.exclusive = q.exclusive ∧
          old.args.same q.args = true then .ok (q.name, b)
      else .error (preconditionFailed "inequivalent arg for queue")
    | none =>
      if reserved q.name = true then .error (accessRefused "queue name")
      else .ok (q.name, b.addQueue q hn)

def queueBind (b : Broker) (x : Binding) : Except Error Broker :=
  if x.exchange = "" then .error (accessRefused "default exchange")
  else if b.findExchange x.exchange = none then .error (notFound "exchange")
  else if b.findQueue x.queue = none then .error (notFound "queue")
  else if x ∈ b.bindings then .ok b
  else .ok { b with bindings := b.bindings ++ [x] }

/-! ### Routing -/

def Binding.accepts (x : Binding) (kind key : String) : Bool :=
  match kind with
  | "topic" => topicMatches x.key key
  | "direct" => x.key == key
  | "fanout" => true
  -- a headers exchange looks at the message headers, which no modelled message uses
  | _ => false

/-- The queues that receive a message published to an exchange with a key. The
default exchange, named by the empty string, routes by queue name. -/
def route (b : Broker) (exchange key : String) : List String :=
  if exchange = "" then (b.queues.map (·.name)).filter (· == key)
  else match b.findExchange exchange with
    | none => []
    | some e => (b.queues.map (·.name)).filter fun q =>
        b.bindings.any fun x => x.exchange == exchange && x.queue == q && Binding.accepts x e.kind key

theorem findQueue_empty (b : Broker) : b.findQueue "" = none := by
  unfold findQueue
  apply List.find?_eq_none.mpr
  intro q hq
  have hn := b.named q hq
  simpa using hn

/-! ### What declaring keeps

Declaring and binding only append, so whatever a broker has it has ever after. -/

structure Extends (b c : Broker) : Prop where
  exchange : ∀ name e, b.findExchange name = some e → c.findExchange name = some e
  queue : ∀ name q, b.findQueue name = some q → c.findQueue name = some q
  binding : ∀ x ∈ b.bindings, x ∈ c.bindings

theorem Extends.refl (b : Broker) : b.Extends b := ⟨fun _ _ h => h, fun _ _ h => h, fun _ h => h⟩

theorem Extends.trans {b c d : Broker} (h : b.Extends c) (k : c.Extends d) : b.Extends d :=
  ⟨fun n e he => k.exchange n e (h.exchange n e he), fun n q hq => k.queue n q (h.queue n q hq),
    fun x hx => k.binding x (h.binding x hx)⟩

theorem addQueue_extends (b : Broker) (q : Queue) (h : q.name ≠ "") : b.Extends (b.addQueue q h) := by
  refine ⟨fun _ _ he => he, ?_, fun _ hx => hx⟩
  intro name old hq
  unfold findQueue at hq ⊢
  show (b.queues ++ [q]).find? _ = some old
  rw [List.find?_append, hq]
  rfl

/- What a successful declaration did: nothing, or it added what it declares. -/
inductive ExchangeDeclared (b : Broker) (e : Exchange) : Broker → Prop where
  | same (old : Exchange) (hfind : b.findExchange e.name = some old) (hkind : old.kind = e.kind) :
      ExchangeDeclared b e b
  | added (hfind : b.findExchange e.name = none) :
      ExchangeDeclared b e { b with exchanges := b.exchanges ++ [e] }

inductive QueueDeclared (b : Broker) (q : Queue) : String × Broker → Prop where
  | generated (hname : q.name = "") :
      QueueDeclared b q (generatedName b.generated,
        { b.addQueue { q with name := generatedName b.generated } (generatedName_ne b.generated) with
          generated := b.generated + 1 })
  | same (old : Queue) (hfind : b.findQueue q.name = some old) (hargs : old.args.same q.args = true) :
      QueueDeclared b q (q.name, b)
  | added (hname : q.name ≠ "") (hfind : b.findQueue q.name = none) :
      QueueDeclared b q (q.name, b.addQueue q hname)

inductive Bound (b : Broker) (x : Binding) : Broker → Prop where
  | same (hmem : x ∈ b.bindings) : Bound b x b
  | added : Bound b x { b with bindings := b.bindings ++ [x] }

theorem exchangeDeclare_cases {b c : Broker} {e : Exchange} (h : b.exchangeDeclare e = .ok c) :
    e.name ≠ "" ∧ ExchangeDeclared b e c := by
  unfold exchangeDeclare at h
  split at h
  · cases h
  · rename_i hname
    refine ⟨hname, ?_⟩
    cases hfind : b.findExchange e.name with
    | some old =>
      simp only [hfind] at h
      split at h
      · rename_i hsame
        cases h
        exact .same old hfind hsame.1
      · cases h
    | none =>
      simp only [hfind] at h
      split at h
      · cases h
      · split at h
        · cases h
          exact .added hfind
        · cases h

theorem queueDeclare_cases {b : Broker} {q : Queue} {r : String × Broker} (h : b.queueDeclare q = .ok r) :
    validTTL q.args = true ∧ QueueDeclared b q r := by
  unfold queueDeclare at h
  split at h
  · cases h
  · rename_i httl
    refine ⟨by simpa using httl, ?_⟩
    split at h
    · rename_i hname
      cases h
      exact .generated hname
    · rename_i hname
      cases hfind : b.findQueue q.name with
      | some old =>
        simp only [hfind] at h
        split at h
        · rename_i hsame
          cases h
          exact .same old hfind hsame.2.2.2
        · cases h
      | none =>
        simp only [hfind] at h
        split at h
        · cases h
        · cases h
          exact .added hname hfind

theorem queueBind_cases {b c : Broker} {x : Binding} (h : b.queueBind x = .ok c) : Bound b x c := by
  unfold queueBind at h
  split at h
  · cases h
  · split at h
    · cases h
    · split at h
      · cases h
      · split at h
        · rename_i hmem
          cases h
          exact .same hmem
        · cases h
          exact .added

/-- A successful exchange declaration leaves an exchange of that name and kind. -/
theorem exchangeDeclare_ok {b c : Broker} {e : Exchange} (h : b.exchangeDeclare e = .ok c) :
    b.Extends c ∧ e.name ≠ "" ∧ ∃ x, c.findExchange e.name = some x ∧ x.kind = e.kind := by
  obtain ⟨hname, hdeclared⟩ := exchangeDeclare_cases h
  cases hdeclared with
  | same old hfind hkind => exact ⟨.refl b, hname, old, hfind, hkind⟩
  | added hfind =>
    have hnew : (b.exchanges ++ [e]).find? (fun x => x.name == e.name) = some e := by
      rw [List.find?_append, show b.exchanges.find? _ = none from hfind]
      simp
    refine ⟨⟨?_, fun _ _ hq => hq, fun _ hx => hx⟩, hname, e, hnew, rfl⟩
    intro name x hx
    unfold findExchange at hx ⊢
    rw [List.find?_append, hx]
    rfl

/-- A successful declaration of a named queue leaves a queue of that name whose
arguments are, as a map, the declared ones. -/
theorem queueDeclare_ok {b c : Broker} {q : Queue} {name : String}
    (h : b.queueDeclare q = .ok (name, c)) :
    b.Extends c ∧ validTTL q.args = true ∧
      (q.name ≠ "" → ∃ x, c.findQueue q.name = some x ∧ ∀ k, x.args.get k = q.args.get k) := by
  obtain ⟨httl, hdeclared⟩ := queueDeclare_cases h
  cases hdeclared with
  | generated hname =>
    have hext := addQueue_extends b { q with name := generatedName b.generated }
      (generatedName_ne b.generated)
    exact ⟨⟨hext.exchange, hext.queue, hext.binding⟩, httl, fun hn => absurd hname hn⟩
  | same old hfind hargs => exact ⟨.refl b, httl, fun _ => ⟨old, hfind, Table.same_get hargs⟩⟩
  | added hname hfind =>
    have hnew : (b.addQueue q hname).findQueue q.name = some q := by
      show (b.queues ++ [q]).find? _ = some q
      rw [List.find?_append, show b.queues.find? _ = none from hfind]
      simp
    exact ⟨addQueue_extends b q hname, httl, fun _ => ⟨q, hnew, fun _ => rfl⟩⟩

theorem queueBind_ok {b c : Broker} {x : Binding} (h : b.queueBind x = .ok c) :
    b.Extends c ∧ x ∈ c.bindings := by
  cases queueBind_cases h with
  | same hmem => exact ⟨.refl b, hmem⟩
  | added =>
    exact ⟨⟨fun _ _ he => he, fun _ _ hq => hq, fun _ hx => List.mem_append_left _ hx⟩,
      List.mem_append_right _ (List.mem_singleton.mpr rfl)⟩

/-! ### Where a message goes -/

theorem findQueue_mem {b : Broker} {name : String} {q : Queue} (h : b.findQueue name = some q) :
    name ∈ b.queues.map (·.name) := by
  unfold findQueue at h
  have hname := List.find?_some h
  exact List.mem_map.mpr ⟨q, List.mem_of_find?_eq_some h, beq_iff_eq.mp hname⟩

theorem mem_route_default {b : Broker} {name : String} {q : Queue} (h : b.findQueue name = some q) :
    name ∈ b.route "" name := by
  simp only [route, if_true, List.mem_filter, beq_self_eq_true, and_true]
  exact findQueue_mem h

/-- A queue bound to a topic exchange with a key receives what is published with that key. -/
theorem mem_route_topic {b : Broker} {e : Exchange} {q : Queue} {x : Binding} {key : String}
    (hname : x.exchange ≠ "") (he : b.findExchange x.exchange = some e) (hk : e.kind = "topic")
    (hx : x ∈ b.bindings) (hkey : x.key = key) (hq : b.findQueue x.queue = some q) :
    x.queue ∈ b.route x.exchange key := by
  simp only [route, if_neg hname, he, List.mem_filter, List.any_eq_true]
  refine ⟨findQueue_mem hq, x, hx, ?_⟩
  simp [Binding.accepts, hk, hkey, topicMatches_self]

theorem not_mem_route_topic {b : Broker} {exchange queue key : String} {e : Exchange} (hname : exchange ≠ "")
    (he : b.findExchange exchange = some e) (hk : e.kind = "topic")
    (h : ∀ x ∈ b.bindings, x.exchange = exchange → x.queue = queue → topicMatches x.key key = false) :
    queue ∉ b.route exchange key := by
  simp only [route, if_neg hname, he, List.mem_filter, List.any_eq_true, Bool.and_eq_true, beq_iff_eq,
    Binding.accepts, hk]
  rintro ⟨-, x, hx, ⟨hxe, hxq⟩, hmatch⟩
  exact absurd ((h x hx hxe hxq).symm.trans hmatch) (by decide)

end Broker

/-! ### Dead-lettering -/

structure Message where
  id : Nat
  routingKey : String
  headers : Table
  body : List UInt8
  deriving DecidableEq, Repr

/- One more death in a queue for a reason: the entry of that pair counts one
more, or a new entry appears; either way it comes first. -/
def addDeath (queue reason : String) (xs : List XDeath) : List XDeath :=
  match xs.find? fun x => x.queue == queue && x.reason == reason with
  | none => ⟨queue, reason, 1⟩ :: xs
  | some old => ⟨queue, reason, old.count + 1⟩ ::
      xs.filter fun x => !(x.queue == queue && x.reason == reason)

-- A header of that name that is no array is replaced.
def Message.deaths (m : Message) : List XDeath :=
  match m.headers.get "x-death" with
  | some (.array xs) => xs
  | _ => []

/-- Where a queue sends its dead letters, and the message as it arrives there. -/
def Broker.deadLetter (b : Broker) (queue reason : String) (m : Message) :
    List String × Message :=
  let args : Table := ((b.findQueue queue).map (·.args)).getD []
  let dead : Message := { m with
    headers := m.headers.set "x-death" (.array (addDeath queue reason m.deaths)) }
  match args.get "x-dead-letter-exchange" with
  | some (.str exchange) =>
    match args.get "x-dead-letter-routing-key" with
    | some (.str key) => (b.route exchange key, { dead with routingKey := key })
    | _ => (b.route exchange m.routingKey, dead)
  | _ => ([], dead)

theorem Broker.deadLetter_same (b : Broker) (queue reason : String) (m : Message) :
    (b.deadLetter queue reason m).2.id = m.id ∧ (b.deadLetter queue reason m).2.body = m.body := by
  unfold Broker.deadLetter
  simp only
  split
  · split <;> exact ⟨rfl, rfl⟩
  · exact ⟨rfl, rfl⟩

theorem Broker.deadLetter_route {b : Broker} {queue exchange key : String} {q : Queue}
    (hq : b.findQueue queue = some q)
    (hx : q.args.get "x-dead-letter-exchange" = some (.str exchange))
    (hk : q.args.get "x-dead-letter-routing-key" = some (.str key)) (reason : String) (m : Message) :
    (b.deadLetter queue reason m).1 = b.route exchange key := by
  simp only [Broker.deadLetter, hq, Option.map_some, Option.getD_some, hx, hk]

end Amqp
