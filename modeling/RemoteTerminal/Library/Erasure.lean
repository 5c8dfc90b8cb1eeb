import RemoteTerminal.Library.Runs

/-! Steps that can be erased from a run. An erasure forgets a part of the state and a part
of the labels; a hidden step changes nothing else, and every other step is one of the
machine also after the erasure. Then a run is, but for the hidden steps, a run without any. -/
namespace LabelledRuns

variable {State Label Seen : Type}

structure Erases (m : Machine State Label Seen) (forget : State → State) (early : Label → Label)
    (hidden : Seen → Bool) : Prop where
  hides : ∀ {t l seen u}, m.act t l = some (seen,u) → hidden seen = true → forget u = forget t
  keeps : ∀ {t l seen u}, m.act t l = some (seen,u) → hidden seen = false →
    m.act (forget t) (early l) = some (seen,forget u)
  twice : ∀ l, early (early l) = early l
  never : ∀ {t l seen u}, forget t = t → m.act t l = some (seen,u) → hidden seen = false

def noteShown (early : Label → Label) (hidden : Seen → Bool) (trace : List (Label × Seen)) (_ : State) (l : Label)
    (seen : Seen) (_ : State) : List (Label × Seen) :=
  if hidden seen then trace else trace ++ [(early l,seen)]

def Erased (early : Label → Label) (_ : State × List (Label × Seen)) (l : Label) : Prop := early l = l

variable {m : Machine State Label Seen} {forget : State → State} {early : Label → Label} {hidden : Seen → Bool}
  {s t u : State × List (Label × Seen)}

theorem erasedRun (erases : Erases m forget early hidden)
    (run : Reaches (watch m (noteShown early hidden)) free s t) :
    Reaches (watch m (noteShown early hidden)) (Erased early) (forget s.1,s.2) (forget t.1,t.2) := by
  refine reachesProject (fun x : State × List (Label × Seen) => (forget x.1,x.2)) ?_ run
  intro x l seen y _ watched
  obtain ⟨act,noted⟩ := watchAct watched
  cases shown : hidden seen with
  | true =>
    left
    simp only [noteShown,shown,if_true] at noted
    rw [noted,erases.hides act shown]
  | false =>
    right
    simp only [noteShown,shown,Bool.false_eq_true,if_false] at noted
    refine ⟨early l,seen,erases.twice l,?_⟩
    simp [watch,erases.keeps act shown,noteShown,shown,noted,erases.twice]

/- A run without hidden steps stays among the states that have nothing to forget. -/
theorem staysErased (erases : Erases m forget early hidden)
    (run : Reaches (watch m (noteShown early hidden)) (Erased early) s t) (start : forget s.1 = s.1) :
    forget t.1 = t.1 := by
  refine invariantOfStep (I := fun x => forget x.1 = x.1) ?_ run start
  intro x l seen y same erased watched
  have act := (watchAct watched).1
  have after := erases.keeps act (erases.never same act)
  rw [same,show early l = l from erased,act] at after
  exact (congrArg Prod.snd (Option.some.inj after)).symm

theorem sameTraces (erases : Erases m forget early hidden) (start : forget s.1 = s.1) {last : State}
    {trace : List (Label × Seen)} :
    (∃ t, Reaches (watch m (noteShown early hidden)) free s (t,trace) ∧ forget t = last) ↔
      Reaches (watch m (noteShown early hidden)) (Erased early) s (last,trace) := by
  constructor
  · intro ⟨t,run,same⟩
    have erased := erasedRun erases run
    rw [start] at erased
    exact same ▸ erased
  · intro run
    exact ⟨last,reachesWeaken (fun _ => trivial) run,staysErased erases run start⟩

end LabelledRuns
