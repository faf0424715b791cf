import Zslay.Lib.Calls

/-!
# Programs that use a service

A program whose own functions answer the requests of a service, and make requests of another kind:
a server on a library that calls back, with the operating system below both.  `Prog.handle` runs a
call of the service inside the program, and `Contract.wp_handle` carries what the service promises
over to the program.  `J` relates the history and the state of the program to the history of the
service, of which it sees no more than the requests.

Such a program is not called while it waits.  `Config.runAlone` is a run in which it is not, and
`Contract.runAlone_sound` the invariant of such runs.
-/

namespace Interaction

variable {C Q A σ R C' Q' A' ω R' G H α : Type}

/-! ### Calls inside a program -/

/-- Runs a call on the part of the state that `get` reads and `put` writes, with its requests
answered by `handler`. -/
def Prog.handle (get : ω → σ) (put : ω → σ → ω) (handler : Q → Comp Q' A' ω A) :
    Prog Q A σ α → Comp Q' A' ω α
  | .done a s => fun w => .done a (put w s)
  | .trap => fun _ => .trap
  | .call q s k => fun w =>
      (handler q (put w s)).bind fun a w' => (k a (get w')).handle get put handler w'

namespace Contract

variable (K : Contract C Q A σ R G) (L : Contract C' Q' A' ω R' H)

/-- The handler keeps to what the service relies on, and keeps the relation, when it answers a
request that satisfies `P`. -/
def Handles (P : Q → Prop) (get : ω → σ) (handler : Q → Comp Q' A' ω A) (J : G → H → ω → Prop) :
    Prop :=
  ∀ q g h w, P q → J g h w → K.offer q (K.observe g (.request q)) (get w) →
    L.Wp (fun h' a w' => ∃ g', K.rely q (K.observe g (.request q)) (get w) g' (get w') ∧
      J (K.observe g' (.answer q a)) h' w') h (handler q w)

variable {K L}

/-- The rule for a call inside a program. -/
theorem wp_handle {get : ω → σ} {put : ω → σ → ω} {handler : Q → Comp Q' A' ω A}
    {P : Q → Prop} {J : G → H → ω → Prop} {post : G → α → σ → Prop}
    (hget : ∀ w s, get (put w s) = s) (hput : ∀ {g h w s}, J g h w → J g h (put w s))
    (hhandler : K.Handles L P get handler J) {p : Prog Q A σ α} {g : G} {h : H} {w : ω}
    (hp : K.Wp post g p) (hasks : p.Asks P) (hJ : J g h w) :
    L.Wp (fun h' a w' => ∃ g', post g' a (get w') ∧ J g' h' w') h (p.handle get put handler w) := by
  induction p generalizing g h w with
  | done a s => exact ⟨g, by rwa [hget], hput hJ⟩
  | trap => exact hp.elim
  | call q s k ih =>
      obtain ⟨hoffer, hresume⟩ := hp
      rw [Prog.handle, wp_bind]
      refine (hhandler q g h (put w s) hasks.1 (hput hJ) (by rwa [hget])).mono L ?_
      rintro h' a w' ⟨g', hrely, hJ'⟩
      rw [hget] at hrely
      exact ih a (get w') (hresume g' (get w') a hrely) (hasks.2 a (get w')) hJ'

end Contract

/-! ### Programs that are called from outside only -/

namespace Config

variable (cfg : Config C Q A σ R)

/-- A move of a caller who waits for each call to return. -/
def turnAlone (api : C → Comp Q A σ R) (act : Action C A) : Config C Q A σ R :=
  match act with
  | .call c => if cfg.stack.isEmpty then cfg.step api (.call c) else cfg
  | .answer a => cfg.step api (.answer a)

/-- A sequence of such moves. -/
def runAlone (api : C → Comp Q A σ R) (acts : List (Action C A)) : Config C Q A σ R :=
  acts.foldl (fun cfg act => cfg.turnAlone api act) cfg

end Config

namespace Contract

variable {K : Contract C Q A σ R G} {api : C → Comp Q A σ R}

/-- The contract of a program that nobody calls while it waits. -/
def alone (observe : G → Event C Q A σ R → G) (idle : G → σ → Prop) (offer : Q → G → σ → Prop) :
    Contract C Q A σ R G where
  observe := observe
  idle := idle
  offer := offer
  rely _ g s g' s' := g' = g ∧ s' = s

/-- Every function of the program meets the contract when nothing else runs. -/
structure ValidAlone (K : Contract C Q A σ R G) (api : C → Comp Q A σ R) : Prop where
  rely_refl : ∀ {q g s}, K.offer q g s → K.rely q g s g s
  idle_call : ∀ c {g s}, K.idle g s → K.Meets c s K.idle g (api c s)

lemma ValidAlone.turn_sound (hK : K.ValidAlone api) {g₀ : G} {cfg : Config C Q A σ R}
    (act : Action C A) (ht : cfg.trapped = false)
    (h : K.Sound cfg.stack (K.record g₀ cfg.log) cfg.state) :
    (cfg.turnAlone api act).trapped = false ∧
      K.Sound (cfg.turnAlone api act).stack (K.record g₀ (cfg.turnAlone api act).log)
        (cfg.turnAlone api act).state := by
  cases act with
  | call c =>
      rw [Config.turnAlone]
      split
      · rename_i hrest
        rw [List.isEmpty_iff] at hrest
        rw [Config.step, if_neg (by simp [ht])]
        rw [hrest] at h
        exact settle_sound hK.rely_refl (hrest ▸ hK.idle_call c h) ht
      · exact ⟨ht, h⟩
  | answer a =>
      refine Config.step_cases (P := fun cfg => cfg.trapped = false ∧
        K.Sound cfg.stack (K.record g₀ cfg.log) cfg.state) api ⟨ht, h⟩
        (fun c hc => by simp at hc) fun f rest a' hstack => ?_
      rw [hstack] at h
      obtain ⟨g₁, s₁, -, hrely, hresume⟩ := h
      refine settle_sound hK.rely_refl ?_ ht
      simpa using hresume _ _ a' hrely

/-- Whatever the answers are, the process does not trap and stays sound. -/
theorem ValidAlone.run_sound (hK : K.ValidAlone api) {g₀ : G} (acts : List (Action C A))
    {cfg : Config C Q A σ R} (ht : cfg.trapped = false)
    (h : K.Sound cfg.stack (K.record g₀ cfg.log) cfg.state) :
    (cfg.runAlone api acts).trapped = false ∧
      K.Sound (cfg.runAlone api acts).stack (K.record g₀ (cfg.runAlone api acts).log)
        (cfg.runAlone api acts).state := by
  induction acts generalizing cfg with
  | nil => exact ⟨ht, h⟩
  | cons act acts ih =>
      obtain ⟨ht', h'⟩ := hK.turn_sound act ht h
      exact ih ht' h'

/-- A property that holds between calls and whenever the program waits holds at any point. -/
theorem alone_holds {observe : G → Event C Q A σ R → G} {idle : G → σ → Prop}
    {offer : Q → G → σ → Prop} {P : G → σ → Prop} (hidle : ∀ g s, idle g s → P g s)
    (hoffer : ∀ q g s, offer q g s → P g s) {stack : List (Frame C Q A σ R)} {g : G} {s : σ}
    (h : (alone observe idle offer).Sound stack g s) : P g s := by
  cases stack with
  | nil => exact hidle g s h
  | cons f rest =>
      obtain ⟨g₀, s₀, hoff, ⟨rfl, rfl⟩, -⟩ := h
      exact hoffer _ _ _ hoff

end Contract

end Interaction
