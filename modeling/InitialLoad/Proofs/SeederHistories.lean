import InitialLoad.Proofs.Passages

/-!
# Histories of a seeder

What can be done with a seeder and to its surroundings, one operation after the
other.  Variables and the environment file change between the actions of the
seeder, and its settings can be forgotten; an action may fail anywhere, and the
next one starts from what it left.

`Turn` is what every operation has in common, by the exchanges that it made
(`Operation.turn`): a passage is a turn, and so is a change to the surroundings.
-/

namespace InitialLoad.Seeder

variable {σ α : Type}

open InitialLoad.Action (Leads Passes)

/-- Something that is done with a seeder, or to its surroundings. -/
inductive Operation where
  | setVariable (name value : Text)
  | deleteVariable (name : Text)
  | writeFile (content : Option Bytes)
  | clearSettings
  | getSettings
  | getClient
  | getDatabase (name : Option Text)
  | ping
  | close
  | run (table : IndexTable)
  | exitStatus (table : IndexTable)

namespace Operation

/-- The operation as an action, without its result. -/
def action : Operation → Action Unit
  | .setVariable name value =>
    Action.update fun x => { x with environment := x.environment.put name value }
  | .deleteVariable name =>
    Action.update fun x => { x with environment := x.environment.erase name }
  | .writeFile content => Action.update fun x => { x with file := content }
  | .clearSettings => Action.update Seeder.clearSettings
  | .getSettings => discard Seeder.getSettings
  | .getClient => discard Seeder.getClient
  | .getDatabase name => discard (Seeder.getDatabase name)
  | .ping => discard Seeder.ping
  | .close => closeClient
  | .run table => discard (Seeder.run table)
  | .exitStatus table => discard (Seeder.exitStatus table)

/-- The operation closes the client, if there is one. -/
def Closes : Operation → Prop
  | .close => True
  | .exitStatus _ => True
  | _ => False

end Operation

/-! ## Turns -/

/-- What an operation does to a seeder, by its exchanges. -/
structure Turn (operation : Operation) (x : Seeder) (es : List Exchange) (y : Seeder) : Prop where
  /-- There is one client at a time, -/
  single : OneClient x.client.toList es
  /-- and the seeder has the one that is open in the end. -/
  held : openClients x.client.toList es = y.client.toList
  /-- Calls agree with the settings that are kept then. -/
  agreeing : ∀ e ∈ es, e.request.NeedsSettings →
    ∃ v, x.resolution.1 = .ok v ∧ y.settings = some v ∧ e.request.AgreesWith v
  closing : ∀ e ∈ es, e.request = .close → operation.Closes
  /-- Settings are kept until they are forgotten. -/
  kept : operation ≠ .clearSettings → ∀ v, x.settings = some v → y.settings = some v
  /-- Settings are those that were kept or that resolved. -/
  resolved : ∀ v, y.settings = some v → x.resolution.1 = .ok v
  /-- A failure to resolve them changes no client. -/
  unresolved : ¬ operation.Closes → ∀ f, x.resolution.1 = .error f → y.client = x.client

namespace Turn

variable {operation : Operation} {x y : Seeder} {es : List Exchange}

theorem of_passage (h : Passage operation.Closes x es y) : Turn operation x es y where
  single := h.single
  held := h.held
  agreeing := by
    intro e hmem hneeds
    obtain ⟨v, hv, hagrees⟩ := h.agreeing e hmem hneeds
    have hresolution := h.continues.resolution
    rw [resolution_of_settings hv] at hresolution
    exact ⟨v, hresolution.symm, hv, hagrees⟩
  closing := h.closing
  kept := fun _ v hv => h.continues.kept hv
  resolved := by
    intro v hv
    rw [← h.continues.resolution, resolution_of_settings hv]
  unresolved := fun hcloses f hf => (h.mono hcloses).client_unresolved hf

/-- A change to the surroundings, or to what is kept of them. -/
theorem of_change (hclient : y.client = x.client)
    (hsettings : y.settings = x.settings ∨ operation = .clearSettings ∧ y.settings = none) :
    Turn operation x [] y where
  single := trivial
  held := by rw [hclient]; rfl
  agreeing := nofun
  closing := nofun
  kept := by
    rintro hkeeps v hv
    obtain hsame | ⟨hclears, -⟩ := hsettings
    · rw [hsame, hv]
    · exact absurd hclears hkeeps
  resolved := by
    intro v hv
    obtain hsame | ⟨-, hnone⟩ := hsettings
    · rw [resolution_of_settings (hsame ▸ hv)]
    · rw [hnone] at hv
      cases hv
  unresolved := fun _ _ _ => hclient

/-- Where settings do not resolve none are kept afterwards. -/
theorem settings_unresolved (h : Turn operation x es y) {f : Failure}
    (hf : x.resolution.1 = .error f) : y.settings = none := by
  cases hsettings : y.settings with
  | none => rfl
  | some v =>
      have hresolved := h.resolved v hsettings
      rw [hf] at hresolved
      cases hresolved

end Turn

/-- **Every operation is a turn.** -/
theorem Operation.turn {operation : Operation} {x y : Seeder} {es : List Exchange}
    {r : Except Failure Unit} (h : Leads operation.action x es r y) : Turn operation x es y := by
  have hdiscard : ∀ {α : Type} {action : Action α} {promised : α → Seeder → Prop},
      Passes operation.Closes (fun _ => True) action promised →
      operation.action = Functor.discard action → Turn operation x es y := by
    intro α action promised hpasses haction
    obtain ⟨result, hleads⟩ := (haction ▸ h).of_discard
    exact .of_passage (hpasses x es result y trivial hleads).1
  cases operation with
  | setVariable name value =>
      obtain ⟨rfl, rfl⟩ := h.of_update
      exact .of_change rfl (Or.inl rfl)
  | deleteVariable name =>
      obtain ⟨rfl, rfl⟩ := h.of_update
      exact .of_change rfl (Or.inl rfl)
  | writeFile content =>
      obtain ⟨rfl, rfl⟩ := h.of_update
      exact .of_change rfl (Or.inl rfl)
  | clearSettings =>
      obtain ⟨rfl, rfl⟩ := h.of_update
      exact .of_change rfl (Or.inr ⟨rfl, rfl⟩)
  | getSettings => exact hdiscard getSettings_passes rfl
  | getClient => exact hdiscard getClient_passes rfl
  | getDatabase name => exact hdiscard (getDatabase_passes name) rfl
  | ping => exact hdiscard ping_passes rfl
  | close => exact .of_passage (closeClient_passes x es r y trivial h).1
  | run table => exact hdiscard (run_passes table) rfl
  | exitStatus table => exact hdiscard (exitStatus_passes table) rfl

/-! ## Histories -/

/-- A seeder, and the state of the server. -/
structure Situation (σ : Type) where
  seeder : Seeder
  state : σ

/-- What comes of an action in a situation. -/
def Situation.outcome (server : Server σ) (action : Action α) (w : Situation σ) (clock : Clock) :
    Outcome σ (Except Failure α × Seeder) :=
  Action.outcome server action w.seeder w.state clock

/-- An operation in a history, and the clock by which it is done. -/
structure Moment where
  operation : Operation
  clock : Clock

namespace Moment

/-- The situation after a moment. -/
def after (server : Server σ) (m : Moment) (w : Situation σ) : Situation σ :=
  let o := w.outcome server m.operation.action m.clock
  ⟨o.result.2, o.state⟩

/-- The exchanges of a moment. -/
def exchanges (server : Server σ) (m : Moment) (w : Situation σ) : List Exchange :=
  Action.exchanges server m.operation.action w.seeder w.state m.clock

/-- Every moment is a turn. -/
theorem turn (server : Server σ) (m : Moment) (w : Situation σ) :
    Turn m.operation w.seeder (m.exchanges server w) (m.after server w).seeder :=
  Operation.turn (Action.leads_outcome server m.operation.action w.seeder w.state m.clock)

/-- The calls of a moment. -/
def calls (server : Server σ) (m : Moment) (w : Situation σ) : List Request :=
  Event.calls (w.outcome server m.operation.action m.clock).events

/-- The calls of a moment agree with the settings that are kept after it. -/
theorem calls_agree {server : Server σ} {m : Moment} {w : Situation σ} {q : Request}
    (hq : q ∈ m.calls server w) (hneeds : q.NeedsSettings) :
    ∃ v, w.seeder.resolution.1 = .ok v ∧ (m.after server w).seeder.settings = some v ∧
      q.AgreesWith v := by
  have hcalls : m.calls server w = (m.exchanges server w).map Exchange.request :=
    (Procedure.exchanges_map_request server _ w.state m.clock).symm
  rw [hcalls] at hq
  obtain ⟨e, he, rfl⟩ := List.mem_map.mp hq
  exact (m.turn server w).agreeing e he hneeds

end Moment

/-- The situation after a history. -/
def after (server : Server σ) : List Moment → Situation σ → Situation σ
  | [], w => w
  | m :: rest, w => after server rest (m.after server w)

/-- The exchanges of a history, in order. -/
def exchanges (server : Server σ) : List Moment → Situation σ → List Exchange
  | [], _ => []
  | m :: rest, w => m.exchanges server w ++ exchanges server rest (m.after server w)

theorem after_append (server : Server σ) (first later : List Moment) (w : Situation σ) :
    after server (first ++ later) w = after server later (after server first w) := by
  induction first generalizing w with
  | nil => rfl
  | cons m rest ih => exact ih _

theorem exchanges_append (server : Server σ) (first later : List Moment) (w : Situation σ) :
    exchanges server (first ++ later) w =
      exchanges server first w ++ exchanges server later (after server first w) := by
  induction first generalizing w with
  | nil => rfl
  | cons m rest ih => simp only [List.cons_append, exchanges, ih, after, List.append_assoc]

/-- A history keeps to one client, the one that the seeder has in the end. -/
theorem oneClient_exchanges (server : Server σ) (history : List Moment) (w : Situation σ) :
    OneClient w.seeder.client.toList (exchanges server history w) ∧
      openClients w.seeder.client.toList (exchanges server history w) =
        (after server history w).seeder.client.toList := by
  induction history generalizing w with
  | nil => exact ⟨trivial, rfl⟩
  | cons m rest ih =>
      have hturn := m.turn server w
      obtain ⟨hsingle, hheld⟩ := ih (m.after server w)
      simp only [exchanges, after, oneClient_append, openClients_append, hturn.held]
      exact ⟨⟨hturn.single, hsingle⟩, hheld⟩

/-- A history in which settings are not forgotten keeps them. -/
theorem settings_after {server : Server σ} {history : List Moment}
    (hkeeps : ∀ m ∈ history, m.operation ≠ .clearSettings) {w : Situation σ} {v : Settings}
    (hv : w.seeder.settings = some v) : (after server history w).seeder.settings = some v := by
  induction history generalizing w with
  | nil => exact hv
  | cons m rest ih =>
      obtain ⟨hm, hrest⟩ := List.forall_mem_cons.mp hkeeps
      exact ih hrest ((m.turn server w).kept hm v hv)

/-- The client is there until a closing is accepted. -/
theorem client_after {server : Server σ} {history : List Moment} {w : Situation σ} {uri : Text}
    (huri : w.seeder.client = some uri) (hclosed : ⟨.close, true⟩ ∉ exchanges server history w) :
    (after server history w).seeder.client = some uri := by
  obtain ⟨hsingle, hheld⟩ := oneClient_exchanges server history w
  rw [huri] at hsingle hheld
  have hopen := openClients_of_not_closed hsingle hclosed
  have hlist : (after server history w).seeder.client.toList = [uri] := hheld.symm.trans hopen
  exact Option.toList_eq_singleton_iff.mp hlist

end InitialLoad.Seeder
