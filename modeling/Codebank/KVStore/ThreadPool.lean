import Codebank.Foundation.Machine

namespace Codebank
namespace KVStore

open Foundation List

/-!
# The pool of threads

Workers wait on the monitor of the queue, and `addJob` notifies one of them, whichever it is.
-/

/-- Where the `run` of a worker stands. -/
inductive WorkerThread where
  | testing
  | looking
  | waiting
  | working
  | ended
  deriving DecidableEq

/-- The queue is a `LinkedList`, which takes null as a job. -/
structure ThreadPool (Job : Type) where
  running : Bool
  threads : List WorkerThread
  tasks : List (Option Job)

namespace ThreadPool

variable {Job : Type}

def new (size : Nat) : ThreadPool Job :=
  ⟨true, replicate size .testing, []⟩

/-- The first job, and null when there is none or when it is null. -/
def peek (pool : ThreadPool Job) : Option Job :=
  pool.tasks.head?.join

theorem tasks_of_peek {pool : ThreadPool Job} {job : Job} (first : pool.peek = some job) :
    ∃ rest, pool.tasks = some job :: rest := by
  unfold peek at first
  cases queue : pool.tasks with
  | nil => simp [queue] at first
  | cons head rest =>
    simp only [queue, head?_cons, Option.join_some] at first
    exact ⟨rest, by rw [first]⟩

theorem tasks_of_peek_none {pool : ThreadPool Job} (null : pool.peek = none)
    (jobs : none ∉ pool.tasks) : pool.tasks = [] := by
  unfold peek at null
  cases queue : pool.tasks with
  | nil => rfl
  | cons head rest =>
    simp only [queue, head?_cons, Option.join_some] at null
    exact absurd (queue ▸ null ▸ mem_cons_self) jobs

/-- A worker goes on, with the jobs that it takes. `getJob` holds the monitor of the queue from
its `peek` to its `poll` or its `wait`. -/
inductive Moves (pool : ThreadPool Job) : WorkerThread -> WorkerThread -> List Job -> Prop where
  | test : Moves pool .testing (if pool.running then .looking else .ended) []
  | poll (job : Job) (first : pool.peek = some job) : Moves pool .looking .working [job]
  | wait (null : pool.peek = none) : Moves pool .looking .waiting []
  -- also without a notification
  | wake : Moves pool .waiting .looking []
  -- `wait` throws an InterruptedException, also at its start, and `run` goes on with its loop
  | interrupt : Moves pool .waiting .testing []
  | refuse (null : pool.peek = none) : Moves pool .looking .testing []
  | finish : Moves pool .working .testing []
  | throw : Moves pool .working .ended []

/-- The label has the jobs added and the jobs taken. -/
inductive Step (pool : ThreadPool Job) :
    List (Option Job) × List Job -> ThreadPool Job -> Prop where
  | addJob (job : Option Job) (nobody : .waiting ∉ pool.threads) :
      Step pool ([job], []) { pool with tasks := pool.tasks ++ [job] }
  | notify (job : Option Job) (left) {right} (one : pool.threads = left ++ .waiting :: right) :
      Step pool ([job], [])
        { pool with tasks := pool.tasks ++ [job], threads := left ++ .looking :: right }
  | close : Step pool ([], []) { pool with running := false }
  | move (left) {right old new taken} (one : pool.threads = left ++ old :: right)
      (moves : pool.Moves old new taken) :
      Step pool ([], taken)
        { pool with tasks := pool.tasks.drop taken.length, threads := left ++ new :: right }

/-- Unless null was added, there is another worker on its way to each job while one waits. -/
def Awake (pool : ThreadPool Job) : Prop :=
  none ∉ pool.tasks -> .waiting ∈ pool.threads -> pool.tasks.length <= pool.threads.count .looking

/-- The jobs that a worker takes are the first ones. -/
theorem Moves.taken {pool : ThreadPool Job} {old new : WorkerThread} {taken : List Job}
    (moves : pool.Moves old new taken) :
    pool.tasks = taken.map some ++ pool.tasks.drop taken.length := by
  cases moves with
  | poll job first =>
    rcases tasks_of_peek first with ⟨rest, queue⟩
    rw [queue]
    rfl
  | test | wait | wake | interrupt | refuse | finish | throw => rfl

theorem Awake.moves {pool : ThreadPool Job} {left right : List WorkerThread}
    {old new : WorkerThread} {taken : List Job} (awake : pool.Awake)
    (one : pool.threads = left ++ old :: right) (moves : pool.Moves old new taken) :
    Awake { pool with tasks := pool.tasks.drop taken.length, threads := left ++ new :: right } := by
  intro jobs waiting
  have queued : none ∉ pool.tasks := by
    rw [moves.taken]
    simpa using jobs
  have before := awake queued
  rw [one] at before
  change (pool.tasks.drop taken.length).length <= (left ++ new :: right).count .looking
  change .waiting ∈ left ++ new :: right at waiting
  simp only [mem_append, mem_cons, count_append, count_cons] at waiting before ⊢
  cases moves with
  | poll job first =>
    -- the queue and the workers on their way both lose one
    rcases tasks_of_peek first with ⟨rest, queue⟩
    simp only [queue, length_cons, reduceCtorEq, false_or, beq_self_eq_true,
      reduceIte] at before waiting
    simp only [queue, length_cons, length_nil, drop_succ_cons, drop_zero]
    have bound := before waiting
    omega
  | wait null | refuse null => simp [tasks_of_peek_none null queued]
  | wake | interrupt =>
    have bound := before (.inr (.inl rfl))
    simp at bound ⊢
    omega
  | test =>
    have bound := before (by split at waiting <;> simpa using waiting)
    simp at bound ⊢
    omega
  | finish | throw =>
    simpa using before (by simpa using waiting)

theorem Awake.step {pool after : ThreadPool Job} {label : List (Option Job) × List Job}
    (awake : pool.Awake) (step : pool.Step label after) : after.Awake := by
  cases step with
  | addJob job nobody => exact fun _ waiting => absurd waiting nobody
  | close => exact awake
  | notify job left one =>
    -- the one notified makes up for the job
    intro jobs _
    have bound := awake (fun null => jobs (mem_append_left _ null))
      (by rw [one]; exact mem_append_right _ mem_cons_self)
    rw [one] at bound
    simp at bound ⊢
    omega
  | move left one moves => exact awake.moves one moves

theorem jobs_taken_in_order {size : Nat} {labels : List (List (Option Job) × List Job)}
    {pool : ThreadPool Job} (run : Run Step (new size) labels pool) :
    (labels.flatMap Prod.snd).map some ++ pool.tasks = labels.flatMap Prod.fst ∧ pool.Awake := by
  induction run with
  | nil => exact ⟨rfl, fun _ _ => Nat.zero_le _⟩
  | snoc _ step ih =>
    refine ⟨?_, ih.2.step step⟩
    rw [flatMap_append, flatMap_append, <- ih.1]
    cases step with
    | addJob | notify | close => simp
    | move _ _ moves =>
      rw [moves.taken]
      simp

/-- The first of three workers finds no job and waits, is notified of job 7 and takes it and job 8
after it. The others wait then, and one of them is notified of job 9. -/
theorem jobs_taken_in_order_notified :
    ∃ labels, ∃ pool : ThreadPool Nat, Run Step (new 3) labels pool ∧
      pool = ⟨true, [.working, .looking, .waiting], [some 9]⟩ ∧
      labels.flatMap Prod.snd = [7, 8] ∧
      (labels.flatMap Prod.snd).map some ++ pool.tasks = labels.flatMap Prod.fst ∧ pool.Awake := by
  have first : Run Step (new 3) _ ⟨true, [.working, .testing, .testing], []⟩ :=
    .snoc (.snoc (.snoc (.snoc .nil (.move [] rfl .test)) (.move [] rfl (.wait rfl)))
      (.notify (some 7) [] rfl)) (.move [] rfl (.poll 7 rfl))
  have second : Run Step (new 3) _ ⟨true, [.working, .testing, .testing], []⟩ :=
    .snoc (.snoc (.snoc (.snoc first (.addJob (some 8) (by decide))) (.move [] rfl .finish))
      (.move [] rfl .test)) (.move [] rfl (.poll 8 rfl))
  have waiting : Run Step (new 3) _ ⟨true, [.working, .waiting, .waiting], []⟩ :=
    .snoc (.snoc (.snoc (.snoc second (.move [.working] rfl .test))
      (.move [.working] rfl (.wait rfl))) (.move [.working, .waiting] rfl .test))
      (.move [.working, .waiting] rfl (.wait rfl))
  have run := Run.snoc waiting (.notify (some 9) [.working] rfl)
  exact ⟨_, _, run, rfl, rfl, jobs_taken_in_order run⟩

end ThreadPool

end KVStore
end Codebank
