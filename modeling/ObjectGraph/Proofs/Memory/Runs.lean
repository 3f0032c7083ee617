/-
# What runs end in

A run in memory sees the calls that were made before it.  Many runs end in the same result or
error whatever these were; such runs are put together like computations without a history.  Two
runs are compared after the same calls: one of them may succeed wherever the other does.
-/
import ObjectGraph.Memory.Run
import Mathlib.Tactic.Choose
import Mathlib.Tactic.Lemma

namespace ObjectGraph

namespace Run

variable {α β γ : Type} {x : Run α} {e : Except RunError α}

/-- After any calls, a run ends in a certain result or error. -/
def Gives (x : Run α) (e : Except RunError α) : Prop :=
  ∀ history : History, (x.run.run history).1 = e

lemma Gives.pure (a : α) : Gives (Pure.pure a) (.ok a) := fun _ => rfl

lemma Gives.fail (error : RunError) : Gives (fail error : Run α) (.error error) := fun _ => rfl

lemma Gives.lift (e : Except RunError α) : Gives (liftM e) e := by
  intro history
  cases e <;> rfl

/-- What follows needs to be known only for the result there is. -/
lemma Gives.bind {f : α → Run β} {g : α → Except RunError β} (hx : Gives x e)
    (hf : ∀ a, e = .ok a → Gives (f a) (g a)) : Gives (x >>= f) (e >>= g) := by
  intro history
  rw [run_bind]
  rcases hr : x.run.run history with ⟨error | a, later⟩
  · obtain rfl : e = .error error := by rw [← hx history, hr]
    rfl
  · obtain rfl : e = .ok a := by rw [← hx history, hr]
    exact hf a rfl later

lemma Gives.map {f : α → β} (hx : Gives x e) :
    Gives (do return f (← x)) (e.map f) := hx.bind fun a _ => Gives.pure (f a)

lemma Gives.ask {call : Except String α → Call} {answer : History → Except String α}
    {given : Except String α} (h : ∀ history, answer history = given) :
    Gives (ask call answer) (given.mapError .unresolved) := by
  intro history
  rw [run_ask, h history]

lemma Gives.forEach {f : α → Run β} {g : α → Except RunError β} (hf : ∀ a, Gives (f a) (g a))
    (l : List α) : Gives (forEach f l) (l.mapM g) := by
  induction l with
  | nil => exact Gives.pure []
  | cons a rest ih =>
    rw [List.mapM_cons]
    exact (hf a).bind fun b _ => ih.map

/-- The results of a run may be known as images. -/
lemma Gives.bind_map {h : α → β} {k : γ → β} {x : Run β} {f : β → Run β}
    {g : α → Except RunError γ} (hx : Gives x (e.map h))
    (hf : ∀ a, Gives (f (h a)) ((g a).map k)) : Gives (x >>= f) ((e >>= g).map k) := by
  have hsame : (e.map h >>= fun _ => (e >>= g).map k) = (e >>= g).map k := by cases e <;> rfl
  rw [← hsame]
  refine hx.bind fun b hb => ?_
  cases e with
  | error error => cases hb
  | ok a =>
    obtain rfl := Except.ok.inj hb
    exact hf a

/-- A run ends alike after any calls. -/
def Steady (x : Run α) : Prop := ∃ e, Gives x e

lemma Steady.pure (a : α) : Steady (Pure.pure a) := ⟨_, Gives.pure a⟩

lemma Steady.bind {f : α → Run β} (hx : Steady x) (hf : ∀ a, Steady (f a)) : Steady (x >>= f) := by
  obtain ⟨e, he⟩ := hx
  choose g hg using hf
  exact ⟨_, he.bind fun a _ => hg a⟩

lemma Steady.forEach {f : α → Run β} (hf : ∀ a, Steady (f a)) (l : List α) :
    Steady (forEach f l) := by
  choose g hg using hf
  exact ⟨_, Gives.forEach hg l⟩

/-! ### Two runs -/

/-- Wherever a run ends in a result, another one, started after the same calls, makes the same
calls and ends in a related result. -/
def Simulated (related : α → β → Prop) (x : Run α) (y : Run β) : Prop :=
  ∀ (history later : History) (a : α), x.run.run history = (.ok a, later) →
    ∃ b, y.run.run history = (.ok b, later) ∧ related a b

lemma Simulated.refl (x : Run α) : Simulated Eq x x :=
  fun _ _ a h => ⟨a, h, rfl⟩

lemma Simulated.pure {related : α → β → Prop} {a : α} {b : β} (h : related a b) :
    Simulated related (Pure.pure a) (Pure.pure b) := by
  intro history later a' ha
  obtain ⟨⟨rfl⟩, rfl⟩ := Prod.mk.inj ha
  exact ⟨b, rfl, h⟩

lemma Simulated.lift {x y : Except RunError α} (h : ∀ a, x = .ok a → y = .ok a) :
    Simulated Eq (liftM x : Run α) (liftM y) := by
  intro history later a ha
  cases x with
  | error e => cases ha
  | ok a' =>
    rw [h a' rfl]
    exact ⟨a, ha, rfl⟩

lemma Simulated.bind {δ : Type} {related : α → β → Prop} {other : γ → δ → Prop} {x : Run α}
    {y : Run β} {f : α → Run γ} {g : β → Run δ} (hx : Simulated related x y)
    (hf : ∀ a b, related a b → Simulated other (f a) (g b)) :
    Simulated other (x >>= f) (y >>= g) := by
  intro history later c hc
  rw [run_bind] at hc
  rcases hr : x.run.run history with ⟨e | a, between⟩
  · rw [hr] at hc
    cases hc
  · rw [hr] at hc
    obtain ⟨b, hb, hab⟩ := hx history between a hr
    rw [run_bind, hb]
    exact hf a b hab between later c hc

/-- Something may be done for images as well as for the elements they are made of. -/
lemma forEach_map (f : β → Run γ) (g : α → β) (l : List α) :
    forEach f (l.map g) = forEach (fun a => f (g a)) l := by
  induction l with
  | nil => rfl
  | cons a rest ih => rw [List.map_cons, forEach, forEach, ih]

/-- A relation between runs that holds of a run and itself, and of runs that do related things
one after the other. -/
structure Compatible (related : ∀ α : Type, Run α → Run α → Prop) : Prop where
  refl : ∀ {α : Type} (x : Run α), related α x x
  bind : ∀ {α β : Type} {x y : Run α} {f g : α → Run β}, related α x y →
    (∀ a, related β (f a) (g a)) → related β (x >>= f) (y >>= g)

lemma compatible_eq : Compatible fun _ x y => x = y where
  refl _ := rfl
  bind hx hf := by rw [hx, funext hf]

lemma compatible_simulated : Compatible fun _ => Simulated Eq where
  refl := Simulated.refl
  bind hx hf := hx.bind fun a _ hab => hab ▸ hf a

lemma Compatible.forEach {related : ∀ α : Type, Run α → Run α → Prop} (hc : Compatible related)
    {f g : α → Run β} (hf : ∀ a, related β (f a) (g a)) (l : List α) :
    related (List β) (forEach f l) (forEach g l) := by
  induction l with
  | nil => exact hc.refl _
  | cons a rest ih => exact hc.bind (hf a) fun b => hc.bind ih fun bs => hc.refl _

end Run

/-- A result of one query comes with a related result of another, if the run of the other one
simulates the run of the one. -/
lemma Graph.exists_execute {graph other : Graph} {related : Rows → Rows → Prop}
    {query second : Query} (h : Run.Simulated related (graph.rows query) (other.rows second))
    {response : Response} (hr : graph.execute query = .ok response) :
    ∃ found others, related found others ∧ response = ⟨found.items⟩ ∧
      other.execute second = .ok ⟨others.items⟩ := by
  have hrun (graph : Graph) (query : Query) : graph.execute query
      = ((graph.rows query).run.run []).1.map fun rows => ⟨rows.items⟩ := rfl
  rw [hrun] at hr
  rcases hrows : (graph.rows query).run.run [] with ⟨e | found, later⟩
  · rw [hrows] at hr
    cases hr
  · rw [hrows] at hr
    obtain ⟨others, hothers, hrelated⟩ := h [] later found hrows
    refine ⟨found, others, hrelated, (Except.ok.inj hr).symm, ?_⟩
    rw [hrun, hothers]
    rfl

end ObjectGraph
