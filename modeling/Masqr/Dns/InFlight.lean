import Masqr.Dns.Serving
import Masqr.Lib.Run

/-!
Queries that are answered at the same time: a task for each datagram and one for each connection,
and the permits they share.
-/

namespace Masqr.Dns

open Masqr.Lib

variable {reqwest : Reqwest}

/-- The most queries answered at once. -/
def MAX_IN_FLIGHT : ℕ := 512

/-- Who asks, and where a reply goes. -/
inductive Client
  | udp (peer : SocketAddr)
  | tcp (connection : ℕ)
  deriving DecidableEq

/-- Where a task is. The task of a datagram begins with its query, that of a connection by reading
one, and again after each reply. -/
inductive Stage
  | reading
  | answering (query : Message)
  | replying (query reply : Message)
  | done
  deriving DecidableEq

/-- The query in work. -/
def Stage.pending : Stage → List Message
  | .answering query | .replying query _ => [query]
  | .reading | .done => []

/-- What becomes of queries: one comes in, and it is refused for want of a permit, left without a
reply, or replied to. -/
inductive Deed
  | asks (query : Message)
  | refused (query : Message)
  | leaves (query : Message)
  | replies (query reply : Message)
  deriving DecidableEq

namespace Deed

def asked : Deed → Option Message
  | asks query => some query
  | _ => none

/-- The query that is done with. -/
def settled : Deed → Option Message
  | asks _ => none
  | refused query | leaves query | replies query _ => some query

def reply : Deed → Option Message
  | replies _ reply => some reply
  | _ => none

end Deed

/-- What happens to a task: a connection's query comes in, or no other does; the answer to the query
is there, and it is written, or the task fails over it. -/
inductive Does (reqwest : Reqwest)
  | reads (query : Message)
  | ends
  | answers (setting : Setting reqwest)
  | writes
  | fails

structure Task where
  client : Client
  stage : Stage

namespace Task

variable (task : Task)

/-- A datagram's permit is kept until its reply is sent, a connection's until it has one. -/
def holds : Bool :=
  match task.client, task.stage with
  | _, .answering _ => true
  | .udp _, .replying _ _ => true
  | _, _ => false

def work : List (Client × Message) := task.stage.pending.map (Prod.mk task.client)

/-- Where a step leaves a task, the permits that are left, and what it did. -/
def goes (free : ℕ) : Does reqwest → Option (Stage × ℕ × List Deed)
  | .reads query =>
    match task.stage with
    | .reading =>
      if ¬ Fits query then none
      else if free = 0 then some (.done, free, [.asks query, .refused query])
      else some (.answering query, free - 1, [.asks query])
    | _ => none
  | .ends =>
    match task.stage with
    | .reading => some (.done, free, [])
    | _ => none
  | .answers setting =>
    match task.client, task.stage with
    | .udp _, .answering query =>
      match setting.answer query with
      | none => some (.done, free + 1, [.leaves query])
      | some reply => some (.replying query reply, free, [])
    | .tcp _, .answering query =>
      -- the permit is dropped before the reply is written
      match setting.answer query with
      | none => some (.done, free + 1, [.leaves query])
      | some reply =>
        if 65535 < reply.length then some (.done, free + 1, [.leaves query])
        else some (.replying query reply, free + 1, [])
    | _, _ => none
  | .writes =>
    match task.client, task.stage with
    | .udp _, .replying query reply => some (.done, free + 1, [.replies query reply])
    | .tcp _, .replying query reply => some (.reading, free, [.replies query reply])
    | _, _ => none
  | .fails =>
    match task.client, task.stage with
    | _, .answering query => some (.done, free + 1, [.leaves query])
    | .udp _, .replying query _ => some (.done, free + 1, [.leaves query])
    | .tcp _, .replying query _ => some (.done, free, [.leaves query])
    | _, _ => none

end Task

/-- What happens next: a connection is accepted, a datagram is received, or a task goes on. -/
inductive Serves (reqwest : Reqwest)
  | accepted
  | datagram (query : Message) (peer : SocketAddr)
  | goes (i : ℕ) (does : Does reqwest)

/-- The permits that are left, the tasks in the order they began, and what was done for whom. -/
structure Serving where
  free : ℕ
  tasks : List Task
  log : List (Client × Deed)

namespace Serving

def start : Serving := ⟨MAX_IN_FLIGHT, [], []⟩

variable (s : Serving)

def step : Serves reqwest → Option Serving
  | .accepted => some { s with tasks := s.tasks ++ [⟨.tcp s.tasks.length, .reading⟩] }
  | .datagram query peer =>
    -- what the buffer is too small for is an error of the socket, and no query
    if 1500 < query.length then none
    else if s.free = 0 then
      some { s with log := s.log ++ [(.udp peer, .asks query), (.udp peer, .refused query)] }
    else
      some {
        free := s.free - 1
        tasks := s.tasks ++ [⟨.udp peer, .answering query⟩]
        log := s.log ++ [(.udp peer, .asks query)] }
  | .goes i does =>
    match s.tasks[i]? with
    | none => none
    | some task =>
      match task.goes s.free does with
      | none => none
      | some (stage, free, deeds) =>
        some ⟨free, s.tasks.set i { task with stage }, s.log ++ deeds.map (Prod.mk task.client)⟩

/-- The queries that came in, and from whom. -/
def arrived : List (Client × Message) :=
  s.log.filterMap fun d => d.2.asked.map (Prod.mk d.1)

/-- The queries that are done with, and whose they were. -/
def settled : List (Client × Message) :=
  s.log.filterMap fun d => d.2.settled.map (Prod.mk d.1)

/-- What was done for a client, in order. -/
def deeds (client : Client) : List Deed := (s.log.filter (·.1 = client)).map Prod.snd

/-- The queries of a connection, and the replies on it. -/
def reads (connection : ℕ) : List Message := (s.deeds (.tcp connection)).filterMap Deed.asked
def replies (connection : ℕ) : List Message := (s.deeds (.tcp connection)).filterMap Deed.reply

end Serving

/-! ### One task -/

/-- A setting that the query has the reply in. -/
def Answered (reqwest : Reqwest) (query reply : Message) : Prop :=
  ∃ setting : Setting reqwest, setting.answer query = some reply

lemma Answered.belongs {query reply : Message} (h : Answered reqwest query reply) :
    Belongs query reply := by
  obtain ⟨setting, hanswer⟩ := h
  obtain ⟨hnone, -⟩ | ⟨reply', hsome, hbelongs⟩ := setting.answer_belongs query
  · rw [hnone] at hanswer
    cases hanswer
  · rw [hsome] at hanswer
    cases hanswer
    exact hbelongs

/-- The reply a task has is its query's. -/
def Task.Right (reqwest : Reqwest) (task : Task) : Prop :=
  ∀ query reply, task.stage = .replying query reply → Answered reqwest query reply

/-- What the deeds of a connection come to, with its task where it is: the queries came one after
another, each once the one before it had its reply. -/
def Conversed (reqwest : Reqwest) (deeds : List Deed) (stage : Stage) : Prop :=
  ∃ before rest, deeds.filterMap Deed.asked = before ++ rest ∧
    List.Forall₂ (fun query reply => reply.length ≤ 65535 ∧ Answered reqwest query reply) before
      (deeds.filterMap Deed.reply) ∧
    rest.length ≤ 1 ∧ (stage ≠ .done → rest = stage.pending) ∧
    ∀ query reply, stage = .replying query reply → reply.length ≤ 65535

/-- A step of a task: a permit is taken or given back with the query it is for, and what comes in is
in work or done with. -/
structure Went (reqwest : Reqwest) (task : Task) (free : ℕ) (stage : Stage) (free' : ℕ)
    (deeds : List Deed) : Prop where
  permits : free' + ({ task with stage } : Task).holds.toNat = free + task.holds.toNat
  queries : task.stage.pending ++ deeds.filterMap Deed.asked =
    deeds.filterMap Deed.settled ++ stage.pending
  right : task.Right reqwest → ({ task with stage } : Task).Right reqwest
  replies : task.Right reqwest → ∀ query reply, .replies query reply ∈ deeds →
    Answered reqwest query reply
  conversed : ∀ connection before, task.client = .tcp connection → task.Right reqwest →
    Conversed reqwest before task.stage → Conversed reqwest (before ++ deeds) stage

namespace Conversed

variable {deeds : List Deed}

lemma nil : Conversed reqwest [] .reading :=
  ⟨[], [], rfl, .nil, Nat.zero_le 1, fun _ => rfl, fun _ _ h => by cases h⟩

lemma asks (h : Conversed reqwest deeds .reading) (query : Message) :
    Conversed reqwest (deeds ++ [.asks query]) (.answering query) := by
  obtain ⟨before, rest, hasked, hpaired, -, hrest, -⟩ := h
  obtain rfl : rest = [] := hrest (by decide)
  refine ⟨before, [query], ?_, ?_, Nat.le_refl 1, fun _ => rfl, fun _ _ h => by cases h⟩
  · rw [List.filterMap_append, hasked, List.append_nil]
    rfl
  · rwa [List.filterMap_append, show List.filterMap Deed.reply [.asks query] = [] from rfl,
      List.append_nil]

/-- A task that is done has done what it did. -/
lemma ends {stage : Stage} {more : List Deed} (h : Conversed reqwest deeds stage)
    (hasked : more.filterMap Deed.asked = []) (hreply : more.filterMap Deed.reply = []) :
    Conversed reqwest (deeds ++ more) .done := by
  obtain ⟨before, rest, hsplit, hpaired, hone, -, -⟩ := h
  refine ⟨before, rest, ?_, ?_, hone, fun h => absurd rfl h, fun _ _ h => by cases h⟩
  · rw [List.filterMap_append, hasked, List.append_nil, hsplit]
  · rwa [List.filterMap_append, hreply, List.append_nil]

variable {query reply : Message}

lemma answered (h : Conversed reqwest deeds (.answering query)) (hlength : reply.length ≤ 65535) :
    Conversed reqwest deeds (.replying query reply) := by
  obtain ⟨before, rest, hasked, hpaired, hone, hrest, -⟩ := h
  refine ⟨before, rest, hasked, hpaired, hone, fun _ => hrest (by simp), ?_⟩
  rintro _ _ ⟨⟩
  exact hlength

lemma replied (h : Conversed reqwest deeds (.replying query reply))
    (hanswered : Answered reqwest query reply) :
    Conversed reqwest (deeds ++ [.replies query reply]) .reading := by
  obtain ⟨before, rest, hasked, hpaired, -, hrest, hlength⟩ := h
  obtain rfl : rest = [query] := hrest (by simp)
  refine ⟨before ++ [query], [], ?_, ?_, Nat.zero_le 1, fun _ => rfl, fun _ _ h => by cases h⟩
  · rw [List.filterMap_append, hasked, List.append_nil]
    simp [Deed.asked]
  · rw [List.filterMap_append]
    exact List.rel_append hpaired (.cons ⟨hlength _ _ rfl, hanswered⟩ .nil)

end Conversed

/-- A query in work is left without a reply. -/
lemma Went.leaves {task : Task} {free free' : ℕ} {query : Message}
    (hpending : task.stage.pending = [query]) (hpermits : free' = free + task.holds.toNat) :
    Went reqwest task free .done free' [.leaves query] where
  permits := by
    rw [hpermits]
    cases task with
    | mk client stage => cases client <;> rfl
  queries := by rw [hpending]; rfl
  right _ _ _ h := by cases h
  replies _ _ _ hmem := by cases List.mem_singleton.1 hmem
  conversed _ _ _ _ h := h.ends rfl rfl

namespace Task

variable {client : Client} {place stage : Stage} {free free' : ℕ} {deeds : List Deed}

lemma goes_reads {query : Message}
    (h : goes ⟨client, place⟩ free (.reads query : Does reqwest) = some (stage, free', deeds)) :
    Went reqwest ⟨client, place⟩ free stage free' deeds := by
  cases place with
  | reading =>
    simp only [goes] at h
    split_ifs at h with hfits hfree
    · cases h
      refine ⟨by cases client <;> rfl, rfl, fun _ _ _ h => (by cases h), fun _ _ _ hmem => ?_,
        fun _ before _ _ h => ?_⟩
      · simp at hmem
      · have hrefused := @Conversed.ends reqwest _ _ [.refused query] (h.asks query) rfl rfl
        rwa [List.append_assoc] at hrefused
    · cases h
      refine ⟨?_, rfl, fun _ _ _ h => (by cases h), fun _ _ _ hmem => ?_,
        fun _ _ _ _ h => h.asks _⟩
      · cases client <;> exact Nat.sub_add_cancel (Nat.pos_of_ne_zero hfree)
      · cases List.mem_singleton.1 hmem
  | _ => cases h

lemma goes_ends
    (h : goes ⟨client, place⟩ free (.ends : Does reqwest) = some (stage, free', deeds)) :
    Went reqwest ⟨client, place⟩ free stage free' deeds := by
  cases place with
  | reading =>
    cases h
    exact ⟨by cases client <;> rfl, rfl, fun _ _ _ h => (by cases h),
      fun _ _ _ hmem => (by cases hmem), fun _ _ _ _ h => h.ends rfl rfl⟩
  | _ => cases h

/-- What is answered is answered in the setting of that moment. -/
lemma right_of_answer {setting : Setting reqwest} {query reply : Message}
    (h : setting.answer query = some reply) : Right reqwest ⟨client, .replying query reply⟩ := by
  rintro _ _ ⟨⟩
  exact ⟨setting, h⟩

lemma goes_answers {setting : Setting reqwest}
    (h : goes ⟨client, place⟩ free (.answers setting) = some (stage, free', deeds)) :
    Went reqwest ⟨client, place⟩ free stage free' deeds := by
  cases place with
  | answering query =>
    cases client with
    | udp peer =>
      simp only [goes] at h
      split at h
      · cases h
        exact .leaves rfl rfl
      · next reply hreply =>
        cases h
        exact ⟨rfl, rfl, fun _ => right_of_answer hreply, fun _ _ _ hmem => (by cases hmem),
          fun _ _ h => (by cases h)⟩
    | tcp connection =>
      simp only [goes] at h
      split at h
      · cases h
        exact .leaves rfl rfl
      · next reply hreply =>
        split_ifs at h with hlong
        · cases h
          exact .leaves rfl rfl
        · cases h
          refine ⟨rfl, rfl, fun _ => right_of_answer hreply, fun _ _ _ hmem => (by cases hmem),
            fun _ before _ _ h => ?_⟩
          rw [List.append_nil]
          exact h.answered (Nat.le_of_not_lt hlong)
  | _ => cases client <;> cases h

lemma goes_writes
    (h : goes ⟨client, place⟩ free (.writes : Does reqwest) = some (stage, free', deeds)) :
    Went reqwest ⟨client, place⟩ free stage free' deeds := by
  cases place with
  | replying query reply =>
    have hreplies (hright : Right reqwest ⟨client, .replying query reply⟩) :
        ∀ query' reply', Deed.replies query' reply' ∈ [Deed.replies query reply] →
          Answered reqwest query' reply' := by
      intro query' reply' hmem
      cases List.mem_singleton.1 hmem
      exact hright query reply rfl
    cases client with
    | udp peer =>
      cases h
      exact ⟨rfl, rfl, fun _ _ _ h => (by cases h), hreplies, fun _ _ h => (by cases h)⟩
    | tcp connection =>
      cases h
      exact ⟨rfl, rfl, fun _ _ _ h => (by cases h), hreplies,
        fun _ _ _ hright h => h.replied (hright query reply rfl)⟩
  | _ => cases client <;> cases h

lemma goes_fails
    (h : goes ⟨client, place⟩ free (.fails : Does reqwest) = some (stage, free', deeds)) :
    Went reqwest ⟨client, place⟩ free stage free' deeds := by
  cases place with
  | answering query => cases client <;> cases h <;> exact .leaves rfl rfl
  | replying query reply => cases client <;> cases h <;> exact .leaves rfl rfl
  | _ => cases client <;> cases h

lemma goes_went {task : Task} {does : Does reqwest}
    (h : task.goes free does = some (stage, free', deeds)) :
    Went reqwest task free stage free' deeds := by
  obtain ⟨client, place⟩ := task
  cases does with
  | reads query => exact goes_reads h
  | ends => exact goes_ends h
  | answers setting => exact goes_answers h
  | writes => exact goes_writes h
  | fails => exact goes_fails h

end Task

/-! ### All of them -/

namespace Serving

variable {s s' : Serving}

/-- What is done with a connection, by where its task is; what is no connection has done nothing. -/
def Talks (reqwest : Reqwest) (s : Serving) (connection : ℕ) : Prop :=
  match s.tasks[connection]? with
  | some ⟨.tcp _, stage⟩ => Conversed reqwest (s.deeds (.tcp connection)) stage
  | _ => s.deeds (.tcp connection) = []

/-- Every permit is left or held by a task; every query that came in is in work or done with; a
reply is its query's; and a connection is the task it began as. -/
structure Good (reqwest : Reqwest) (s : Serving) : Prop where
  permits : s.free + s.tasks.countP Task.holds = MAX_IN_FLIGHT
  queries : s.arrived.Perm (s.tasks.flatMap Task.work ++ s.settled)
  right : ∀ task ∈ s.tasks, task.Right reqwest
  replied : ∀ client query reply, (client, .replies query reply) ∈ s.log →
    Answered reqwest query reply
  named : ∀ (i : ℕ) (task : Task) (connection : ℕ), s.tasks[i]? = some task →
    task.client = .tcp connection → connection = i
  talks : ∀ connection, s.Talks reqwest connection

lemma Good.start : Good reqwest start where
  permits := rfl
  queries := .nil
  right := by simp [Serving.start]
  replied := by simp [Serving.start]
  named := by simp [Serving.start]
  talks _ := rfl

/-- What is done for one client is not done for another. -/
lemma deeds_done {client : Client} {deeds : List Deed}
    (hlog : s'.log = s.log ++ deeds.map (Prod.mk client)) (client' : Client) :
    s'.deeds client' = s.deeds client' ++ if client = client' then deeds else [] := by
  simp only [Serving.deeds, hlog, List.filter_append, List.map_append, List.append_cancel_left_eq]
  split_ifs with hsame
  · simp [List.filter_map, Function.comp_def, hsame]
  · simp [List.filter_map, Function.comp_def, hsame]

/-- A connection that nothing is done with. -/
lemma Talks.same {connection : ℕ} (h : s.Talks reqwest connection)
    (htask : s'.tasks[connection]? = s.tasks[connection]?)
    (hdeeds : s'.deeds (.tcp connection) = s.deeds (.tcp connection)) :
    s'.Talks reqwest connection := by
  unfold Talks
  rw [htask, hdeeds]
  exact h

lemma filterMap_done {α : Type} (client : Client) (deeds : List Deed) (f : Deed → Option α) :
    (deeds.map (Prod.mk client)).filterMap (fun d => (f d.2).map (Prod.mk d.1)) =
      (deeds.filterMap f).map (Prod.mk client) := by
  rw [List.filterMap_map, List.map_filterMap]
  rfl

section

variable {i : ℕ} {task : Task} (htask : s.tasks[i]? = some task)

include htask

lemma tasks_perm : s.tasks.Perm (task :: s.tasks.eraseIdx i) := by
  obtain ⟨hlt, rfl⟩ := List.getElem?_eq_some_iff.1 htask
  exact (List.getElem_cons_eraseIdx_perm hlt).symm

lemma tasks_set_perm (task' : Task) :
    (s.tasks.set i task').Perm (task' :: s.tasks.eraseIdx i) :=
  List.set_perm_cons_eraseIdx (List.getElem?_eq_some_iff.1 htask).1 task'

/-- A task goes on. -/
lemma Good.goes (h : s.Good reqwest) {stage : Stage} {free : ℕ} {deeds : List Deed}
    (hwent : Went reqwest task s.free stage free deeds) :
    Good reqwest
      ⟨free, s.tasks.set i { task with stage }, s.log ++ deeds.map (Prod.mk task.client)⟩ where
  permits := by
    have hpermits := h.permits
    have hwent := hwent.permits
    rw [(tasks_perm htask).countP_eq, List.countP_cons] at hpermits
    rw [(tasks_set_perm htask _).countP_eq, List.countP_cons]
    cases hholds : task.holds <;> cases hholds' : ({ task with stage } : Task).holds <;>
      simp only [hholds, hholds', Bool.toNat_true, Bool.toNat_false, Bool.false_eq_true, if_true,
        if_false] at hpermits hwent ⊢ <;> omega
  queries := by
    have hqueries := congrArg (List.map (Prod.mk task.client)) hwent.queries
    refine List.perm_iff_count.2 fun x => ?_
    have hbefore := h.queries.count_eq x
    have hcount := congrArg (List.count x) hqueries
    rw [List.count_append, ((tasks_perm htask).flatMap_right _).count_eq, List.flatMap_cons,
      List.count_append] at hbefore
    rw [List.count_append, ((tasks_set_perm htask _).flatMap_right _).count_eq, List.flatMap_cons,
      List.count_append]
    simp only [arrived, settled, List.filterMap_append, filterMap_done, List.count_append,
      List.map_append] at hbefore hcount ⊢
    simp only [Task.work] at hbefore ⊢
    omega
  right := by
    intro task' hmem
    rcases List.mem_or_eq_of_mem_set hmem with hmem | rfl
    · exact h.right task' hmem
    · exact hwent.right (h.right task (List.mem_of_getElem? htask))
  replied := by
    intro client query reply hmem
    rcases List.mem_append.1 hmem with hmem | hmem
    · exact h.replied client query reply hmem
    · obtain ⟨deed, hdeed, heq⟩ := List.mem_map.1 hmem
      cases heq
      exact hwent.replies (h.right task (List.mem_of_getElem? htask)) query reply hdeed
  named := by
    intro j task' connection htask' hclient
    rw [List.getElem?_set] at htask'
    split_ifs at htask' with hij hlt
    · cases htask'
      exact hij ▸ h.named i task connection htask hclient
    · exact h.named j task' connection htask' hclient
  talks := by
    intro connection
    obtain ⟨client, place⟩ := task
    have htalks := h.talks connection
    have hdeeds := @deeds_done s ⟨free, s.tasks.set i ⟨client, stage⟩,
      s.log ++ deeds.map (Prod.mk client)⟩ client deeds rfl (.tcp connection)
    by_cases hi : i = connection
    · subst hi
      have hlt := (List.getElem?_eq_some_iff.1 htask).1
      unfold Talks at htalks ⊢
      rw [htask] at htalks
      rw [List.getElem?_set_self hlt, hdeeds]
      cases client with
      | udp peer => simpa using htalks
      | tcp connection' =>
        obtain rfl := h.named i _ connection' htask rfl
        rw [if_pos rfl]
        exact hwent.conversed connection' _ rfl (h.right _ (List.mem_of_getElem? htask)) htalks
    · refine htalks.same (List.getElem?_set_ne hi) ?_
      have hother : client ≠ .tcp connection := fun hclient =>
        hi (h.named i _ connection htask hclient).symm
      rw [hdeeds, if_neg hother, List.append_nil]

end

/-- A task that begins: that of a connection nothing was done with, or of a datagram. -/
def Begins (s : Serving) (task : Task) : Prop :=
  task = ⟨.tcp s.tasks.length, .reading⟩ ∨ ∃ peer query, task = ⟨.udp peer, .answering query⟩

lemma Talks.begins {connection : ℕ} {task : Task} (h : s.Talks reqwest connection)
    (htask : s.Begins task) (htasks : s'.tasks = s.tasks ++ [task])
    (hdeeds : s'.deeds (.tcp connection) = s.deeds (.tcp connection)) :
    s'.Talks reqwest connection := by
  rcases Nat.lt_trichotomy connection s.tasks.length with hlt | rfl | hgt
  · exact h.same (by rw [htasks, List.getElem?_append_left hlt]) hdeeds
  · unfold Talks at h ⊢
    rw [List.getElem?_eq_none (Nat.le_refl _)] at h
    rw [htasks, List.getElem?_concat_length, hdeeds]
    rcases htask with rfl | ⟨peer, query, rfl⟩
    · rw [h]
      exact .nil
    · exact h
  · refine h.same ?_ hdeeds
    rw [htasks, List.getElem?_eq_none (Nat.le_of_lt hgt), List.getElem?_eq_none]
    rw [List.length_append, List.length_singleton]
    exact hgt

/-- A task begins. -/
lemma Good.begins (h : s.Good reqwest) {task : Task} {free : ℕ} {deeds : List Deed}
    (htask : s.Begins task) (hpermits : free + task.holds.toNat = s.free)
    (hdeeds : deeds = task.stage.pending.map .asks) :
    Good reqwest ⟨free, s.tasks ++ [task], s.log ++ deeds.map (Prod.mk task.client)⟩ where
  permits := by
    have := h.permits
    rw [List.countP_append, List.countP_singleton]
    cases hholds : task.holds <;> simp [hholds] at hpermits ⊢ <;> omega
  queries := by
    refine List.perm_iff_count.2 fun x => ?_
    have hbefore := h.queries.count_eq x
    have hasked : deeds.filterMap Deed.asked = task.stage.pending := by
      rw [hdeeds, List.filterMap_map]
      exact List.filterMap_some
    have hsettled : deeds.filterMap Deed.settled = [] := by
      rw [hdeeds, List.filterMap_map]
      exact List.filterMap_none _
    simp only [arrived, settled, List.filterMap_append, filterMap_done, hasked, hsettled,
      List.count_append, List.flatMap_append, List.flatMap_singleton, List.map_nil,
      List.count_nil] at hbefore ⊢
    simp only [Task.work]
    omega
  right := by
    intro task' hmem
    rcases List.mem_append.1 hmem with hmem | hmem
    · exact h.right task' hmem
    · rw [List.mem_singleton.1 hmem]
      rcases htask with rfl | ⟨peer, query, rfl⟩ <;> exact fun _ _ h => (by cases h)
  replied := by
    intro client query reply hmem
    rcases List.mem_append.1 hmem with hmem | hmem
    · exact h.replied client query reply hmem
    · simp [hdeeds] at hmem
  named := by
    intro j task' connection htask' hclient
    rcases Nat.lt_or_ge j s.tasks.length with hlt | hge
    · rw [List.getElem?_append_left hlt] at htask'
      exact h.named j task' connection htask' hclient
    · rw [List.getElem?_append_right hge, List.getElem?_singleton] at htask'
      split_ifs at htask' with hj
      cases htask'
      rcases htask with rfl | ⟨peer, query, rfl⟩
      · cases hclient
        omega
      · cases hclient
  talks := by
    intro connection
    refine (h.talks connection).begins htask rfl ?_
    rw [deeds_done rfl]
    rcases htask with rfl | ⟨peer, query, rfl⟩
    · rw [hdeeds]
      simp [Stage.pending]
    · simp

/-- A datagram is dropped for want of a permit. -/
lemma Good.refuses (h : s.Good reqwest) (query : Message) (peer : SocketAddr) :
    Good reqwest { s with
      log := s.log ++ [(.udp peer, .asks query), (.udp peer, .refused query)] } where
  permits := h.permits
  queries := by
    refine List.perm_iff_count.2 fun x => ?_
    have hbefore := h.queries.count_eq x
    have hasked : [(Client.udp peer, Deed.asks query), (.udp peer, .refused query)].filterMap
        (fun d => d.2.asked.map (Prod.mk d.1)) = [(.udp peer, query)] := rfl
    have hsettled : [(Client.udp peer, Deed.asks query), (.udp peer, .refused query)].filterMap
        (fun d => d.2.settled.map (Prod.mk d.1)) = [(.udp peer, query)] := rfl
    simp only [arrived, settled, List.filterMap_append, List.count_append, hasked, hsettled]
      at hbefore ⊢
    omega
  right := h.right
  replied := by
    intro client query' reply hmem
    rcases List.mem_append.1 hmem with hmem | hmem
    · exact h.replied client query' reply hmem
    · simp at hmem
  named := h.named
  talks connection := by
    refine (h.talks connection).same rfl ?_
    rw [@deeds_done s _ (.udp peer) [.asks query, .refused query] rfl]
    simp

lemma Good.step (h : s.Good reqwest) {label : Serves reqwest} (hs : s.step label = some s') :
    s'.Good reqwest := by
  cases label with
  | accepted =>
    cases hs
    have hbegun := @Good.begins reqwest s h ⟨.tcp s.tasks.length, .reading⟩ _ [] (.inl rfl) rfl rfl
    simpa using hbegun
  | datagram query peer =>
    simp only [Serving.step] at hs
    split_ifs at hs with hlong hfree
    · cases hs
      exact h.refuses query peer
    · cases hs
      exact @Good.begins reqwest s h ⟨.udp peer, .answering query⟩ _ _ (.inr ⟨peer, query, rfl⟩)
        (Nat.sub_add_cancel (Nat.pos_of_ne_zero hfree)) rfl
  | goes i does =>
    simp only [Serving.step] at hs
    split at hs
    · cases hs
    next task htask =>
    split at hs
    · cases hs
    next stage free deeds hgoes =>
    cases hs
    exact h.goes htask (Task.goes_went hgoes)

end Serving

/-- A conversation whose first query is answered in a setting. -/
def Conversation.after (setting : Setting reqwest) (c : Conversation) : Conversation where
  busy
    | 0 => false
    | n + 1 => c.busy n
  answer
    | 0 => setting.answer
    | n + 1 => c.answer n
  breaks
    | 0 => false
    | n + 1 => c.breaks n

lemma Conversation.after_served (setting : Setting reqwest) (c : Conversation) (n : ℕ)
    (queries : List Message) : (c.after setting).served (n + 1) queries = c.served n queries := by
  induction queries generalizing n with
  | nil => rfl
  | cons query later ih =>
    rw [Conversation.served, Conversation.served, ih]
    rfl

/-- Queries with their replies are a conversation, which ends with them. -/
lemma exists_conversation {before replies : List Message}
    (h : List.Forall₂ (fun query reply => reply.length ≤ 65535 ∧ Answered reqwest query reply)
      before replies) :
    ∃ c : Conversation, (∀ n, c.busy n = false → ∃ setting : Setting reqwest,
      c.answer n = setting.answer) ∧ ∀ rest, c.served 0 (before ++ rest) = replies := by
  induction h with
  | nil =>
    refine ⟨⟨fun _ => true, fun _ _ => none, fun _ => false⟩, fun _ h => (by cases h), ?_⟩
    intro rest
    cases rest <;> rfl
  | cons hfirst _ ih =>
    obtain ⟨hlength, setting, hanswer⟩ := hfirst
    obtain ⟨c, hsettings, hserved⟩ := ih
    refine ⟨c.after setting, fun n h => ?_, fun rest => ?_⟩
    · cases n with
      | zero => exact ⟨setting, rfl⟩
      | succ n => exact hsettings n h
    · rw [List.cons_append, Conversation.served, c.after_served, hserved]
      simp [Conversation.after, hanswer, Nat.not_lt.2 hlength]

/-- **What a connection comes to.** Its queries are read one at a time, each after the reply to the
one before; the replies are, in order, those of a conversation with them. -/
lemma Conversed.served {deeds : List Deed} {stage : Stage} (h : Conversed reqwest deeds stage) :
    (deeds.filterMap Deed.asked).length ≤ (deeds.filterMap Deed.reply).length + 1 ∧
    List.Forall₂ Belongs ((deeds.filterMap Deed.asked).take (deeds.filterMap Deed.reply).length)
      (deeds.filterMap Deed.reply) ∧
    ∃ c : Conversation, (∀ n, c.busy n = false → ∃ setting : Setting reqwest,
      c.answer n = setting.answer) ∧
      c.served 0 (deeds.filterMap Deed.asked) = deeds.filterMap Deed.reply := by
  obtain ⟨before, rest, hasked, hpaired, hone, -⟩ := h
  obtain ⟨c, hsettings, hserved⟩ := exists_conversation hpaired
  rw [hasked, ← hpaired.length_eq, List.length_append, List.take_left]
  refine ⟨Nat.add_le_add_left hone _, ?_, c, hsettings, hserved rest⟩
  exact hpaired.imp fun _ _ h => h.2.belongs

/-- **Queries at the same time are kept apart**, however their tasks take turns: every permit is
left or held by the task of a query; every query that came in is in work or done with, and so is
known for whose it is; every reply is written to a client whose query it answers; and a connection
has its queries answered one by one, in the order they came. -/
theorem serving {labels : List (Serves reqwest)} {s : Serving}
    (h : Lib.run Serving.step Serving.start labels = some s) :
    s.free + s.tasks.countP Task.holds = MAX_IN_FLIGHT ∧
    s.arrived.Perm (s.tasks.flatMap Task.work ++ s.settled) ∧
    (∀ client query reply, (client, .replies query reply) ∈ s.log →
      (client, query) ∈ s.arrived ∧ Answered reqwest query reply ∧ Belongs query reply) ∧
    ∀ connection,
      (s.reads connection).length ≤ (s.replies connection).length + 1 ∧
      List.Forall₂ Belongs ((s.reads connection).take (s.replies connection).length)
        (s.replies connection) ∧
      ∃ c : Conversation, (∀ n, c.busy n = false → ∃ setting : Setting reqwest,
        c.answer n = setting.answer) ∧
        c.served 0 (s.reads connection) = s.replies connection := by
  have hgood : s.Good reqwest :=
    Lib.run_inv (fun _ _ _ hg hs => hg.step hs) Serving.Good.start h
  refine ⟨hgood.permits, hgood.queries, fun client query reply hmem => ?_, fun connection => ?_⟩
  · have hanswered := hgood.replied client query reply hmem
    refine ⟨hgood.queries.mem_iff.2 (List.mem_append_right _ ?_), hanswered, hanswered.belongs⟩
    exact List.mem_filterMap.2 ⟨_, hmem, rfl⟩
  · have htalks := hgood.talks connection
    unfold Serving.Talks at htalks
    split at htalks
    · exact htalks.served
    · have hnothing : Conversed reqwest (s.deeds (.tcp connection)) .reading := by
        rw [htalks]
        exact .nil
      exact hnothing.served

/-- No rules, and nothing outside that answers. -/
def unconfigured : Setting noHttps where
  installed := none
  watched _ := false
  asker := none
  lineSource _ := none
  network := bytewise

/-- Two clients ask, and the one that asked second is answered first. -/
def crossed : List (Serves noHttps) :=
  [.accepted, .goes 0 (.reads [1, 2, 1, 0, 0, 1, 0, 0, 0, 0, 0, 0]),
    .datagram [3, 4, 1, 0, 0, 1, 0, 0, 0, 0, 0, 0] ⟨.v4 0x7f000001, 5353⟩,
    .goes 1 (.answers unconfigured), .goes 1 .writes, .goes 0 (.answers unconfigured),
    .goes 0 .writes]

theorem serving_crossed :
    ∃ s, Lib.run Serving.step Serving.start crossed = some s ∧
      s.free + s.tasks.countP Task.holds = MAX_IN_FLIGHT ∧
      s.arrived.Perm (s.tasks.flatMap Task.work ++ s.settled) ∧
      (∀ client query reply, (client, .replies query reply) ∈ s.log →
        (client, query) ∈ s.arrived ∧ Answered noHttps query reply ∧ Belongs query reply) ∧
      ∀ connection,
        (s.reads connection).length ≤ (s.replies connection).length + 1 ∧
        List.Forall₂ Belongs ((s.reads connection).take (s.replies connection).length)
          (s.replies connection) ∧
        ∃ c : Conversation, (∀ n, c.busy n = false → ∃ setting : Setting noHttps,
          c.answer n = setting.answer) ∧
          c.served 0 (s.reads connection) = s.replies connection := by
  obtain ⟨s, hs⟩ := Option.isSome_iff_exists.1
    (rfl : (Lib.run Serving.step Serving.start crossed).isSome = true)
  exact ⟨s, hs, serving hs⟩

end Masqr.Dns
