import InitialLoad.Proofs.Exchanges
import InitialLoad.Proofs.ProgramRun

/-!
# The life of a client

Which clients are open can be read off the exchanges: one more after each
connection that was accepted, and one less after each closing that was.  The
seeder relies on there being at most one, and on knowing it.  `OneClient` says
that exchanges keep to this: a client is made only when none is open, and every
other call goes over the one that is.

A `Passage` is what every action of the seeder has in common.  It keeps to one
client, the one that the seeder has in the end; it forgets no settings and takes
over only those that environment and file resolve to; and its calls agree with the
settings that it then keeps: the address, the database, the database user and the
grant are all theirs.  Passages compose, so an action is a passage because its
parts are (`Action.Passes.bind`).
-/

namespace InitialLoad

variable {α β : Type}

/-! ## Clients by the exchanges -/

/-- The call goes over a client; it neither makes nor closes one. -/
def Request.UsesClient : Request → Prop
  | .connect _ => False
  | .close => False
  | _ => True

namespace Exchange

/-- The clients that are open after an exchange, by their addresses, the last one
that was made first. -/
def opened (clients : List Text) (e : Exchange) : List Text :=
  match e.request, e.accepted with
  | .connect uri, true => uri :: clients
  | .close, true => clients.tail
  | _, _ => clients

/-- A client is made when none is open; every other call goes over the only one
that is. -/
def Fits (clients : List Text) (e : Exchange) : Prop :=
  match e.request with
  | .connect _ => clients = []
  | _ => ∃ uri, clients = [uri]

theorem opened_of_usesClient {clients : List Text} {e : Exchange} (h : e.request.UsesClient) :
    e.opened clients = clients := by
  rcases e with ⟨request, accepted⟩
  cases request with
  | connect uri => cases h
  | close => cases h
  | _ => rfl

theorem fits_of_usesClient {uri : Text} {e : Exchange} (h : e.request.UsesClient) :
    e.Fits [uri] := by
  rcases e with ⟨request, accepted⟩
  cases request with
  | connect other => cases h
  | close => cases h
  | _ => exact ⟨uri, rfl⟩

end Exchange

/-- The clients that are open after exchanges, by their addresses. -/
def openClients (clients : List Text) (es : List Exchange) : List Text :=
  es.foldl Exchange.opened clients

/-- The exchanges keep to one client at a time. -/
def OneClient (clients : List Text) : List Exchange → Prop
  | [] => True
  | e :: rest => e.Fits clients ∧ OneClient (e.opened clients) rest

theorem openClients_append (clients : List Text) (first later : List Exchange) :
    openClients clients (first ++ later) = openClients (openClients clients first) later :=
  List.foldl_append

theorem oneClient_append {clients : List Text} {first later : List Exchange} :
    OneClient clients (first ++ later) ↔
      OneClient clients first ∧ OneClient (openClients clients first) later := by
  induction first generalizing clients with
  | nil => simp [OneClient, openClients]
  | cons e rest ih =>
      simp only [List.cons_append, OneClient, ih, openClients, List.foldl_cons, and_assoc]

/-- Calls over a client leave it open, and keep to it. -/
theorem oneClient_of_usesClient {uri : Text} {es : List Exchange}
    (h : ∀ e ∈ es, e.request.UsesClient) : OneClient [uri] es ∧ openClients [uri] es = [uri] := by
  induction es with
  | nil => exact ⟨trivial, rfl⟩
  | cons e rest ih =>
      obtain ⟨he, hrest⟩ := List.forall_mem_cons.mp h
      have hopened : e.opened [uri] = [uri] := Exchange.opened_of_usesClient he
      simp only [OneClient, openClients, List.foldl_cons, hopened]
      exact ⟨⟨Exchange.fits_of_usesClient he, (ih hrest).1⟩, (ih hrest).2⟩

/-- At most one client is open at any time. -/
theorem openClients_length_le_one {clients : List Text} {es : List Exchange}
    (hclients : clients.length ≤ 1) (h : OneClient clients es) :
    (openClients clients es).length ≤ 1 := by
  induction es generalizing clients with
  | nil => exact hclients
  | cons e rest ih =>
      refine ih ?_ h.2
      obtain ⟨hfits, -⟩ := h
      rcases e with ⟨request, accepted⟩
      cases request <;> cases accepted <;> simp_all [Exchange.Fits, Exchange.opened]

/-- The client that is open stays open until a closing is accepted. -/
theorem openClients_of_not_closed {uri : Text} {es : List Exchange} (h : OneClient [uri] es)
    (hclosed : ⟨.close, true⟩ ∉ es) : openClients [uri] es = [uri] := by
  induction es with
  | nil => rfl
  | cons e rest ih =>
      obtain ⟨hfits, hrest⟩ := h
      have hopened : e.opened [uri] = [uri] := by
        rcases e with ⟨request, accepted⟩
        cases request <;> cases accepted <;> simp_all [Exchange.Fits, Exchange.opened]
      rw [hopened] at hrest
      simp only [openClients, List.foldl_cons, hopened]
      exact ih hrest fun hmem => hclosed (List.mem_cons_of_mem _ hmem)

/-- A client that is open in the end was open from the start, and was not closed,
or it was made in between. -/
theorem openClients_cases {clients : List Text} {uri : Text} {es : List Exchange}
    (h : OneClient clients es) (hopen : openClients clients es = [uri]) :
    clients = [uri] ∧ ⟨.close, true⟩ ∉ es ∨ ⟨.connect uri, true⟩ ∈ es := by
  induction es generalizing clients with
  | nil => exact Or.inl ⟨hopen, List.not_mem_nil⟩
  | cons e rest ih =>
      obtain ⟨hfits, hrest⟩ := h
      obtain ⟨hopened, hclosed⟩ | hmade := ih hrest hopen
      · rcases e with ⟨request, accepted⟩
        cases request with
        | connect other =>
            have hnone : clients = [] := hfits
            cases accepted <;> simp_all [Exchange.opened]
        | close =>
            obtain ⟨other, rfl⟩ : ∃ other, clients = [other] := hfits
            cases accepted <;> simp_all [Exchange.opened]
        | _ => exact Or.inl ⟨hopened, by simpa using hclosed⟩
      · exact Or.inr (List.mem_cons_of_mem _ hmade)

/-! ## Calls and settings -/

/-- Some part of the call is taken from settings. -/
def Request.NeedsSettings : Request → Prop
  | .close => False
  | .ping => False
  | _ => True

/-- The address, the database, the database user and its one grant are those of the
settings, where the call has them. -/
def Request.AgreesWith (v : Settings) : Request → Prop
  | .connect uri => uri = v.uri
  | .close => True
  | .ping => True
  | .createUser database user pwd roles =>
    database = v.databaseName ∧ user = .text v.userName ∧ pwd = .text v.userPassword ∧
      roles = [.object [("role", .text v.userRole), ("db", .text v.databaseName)]]
  | .createIndex place _ _ => place.database = v.databaseName
  | .insertOne place _ => place.database = v.databaseName
  | .findOne place _ => place.database = v.databaseName
  | .findIds place => place.database = v.databaseName

namespace Seeder

/-! ## Settings by the seeder -/

/-- One seeder comes after the other: environment and file are the same, and the
settings are kept, or were resolved since. -/
structure Continues (x y : Seeder) : Prop where
  environment : y.environment = x.environment
  file : y.file = x.file
  settings : y.settings = x.settings ∨ ∃ v, x.resolution.1 = .ok v ∧ y.settings = some v

namespace Continues

variable {x y z : Seeder}

theorem refl (x : Seeder) : Continues x x := ⟨rfl, rfl, Or.inl rfl⟩

/-- Settings that were resolved are kept. -/
theorem kept {v : Settings} (h : Continues x y) (hv : x.settings = some v) :
    y.settings = some v := by
  rcases h.settings with hsame | ⟨w, hw, hy⟩
  · rw [hsame, hv]
  · rw [resolution_of_settings hv] at hw
    cases hw
    exact hy

/-- The settings resolve to the same before and after. -/
theorem resolution (h : Continues x y) : y.resolution.1 = x.resolution.1 := by
  rcases h.settings with hsame | ⟨v, hv, hy⟩
  · simp only [Seeder.resolution, hsame, h.environment, h.file]
  · rw [hv, resolution_of_settings hy]

theorem trans (h : Continues x y) (h' : Continues y z) : Continues x z where
  environment := h'.environment.trans h.environment
  file := h'.file.trans h.file
  settings := by
    rcases h'.settings with hsame | ⟨v, hv, hz⟩
    · rw [hsame]
      exact h.settings
    · exact Or.inr ⟨v, h.resolution ▸ hv, hz⟩

theorem remembering (x : Seeder) : Continues x x.remembering := by
  unfold Seeder.remembering
  cases hresolution : x.resolution.1 with
  | error f => exact refl x
  | ok v => exact ⟨rfl, rfl, Or.inr ⟨v, hresolution, rfl⟩⟩

end Continues

/-! ## Passages -/

/-- What an action of the seeder does by its exchanges; `mayClose` says whether it
may close the client. -/
structure Passage (mayClose : Prop) (x : Seeder) (es : List Exchange) (y : Seeder) : Prop where
  continues : Continues x y
  /-- There is one client at a time, -/
  single : OneClient x.client.toList es
  /-- and the seeder has the one that is open in the end. -/
  held : openClients x.client.toList es = y.client.toList
  /-- Calls agree with settings that are kept. -/
  agreeing : ∀ e ∈ es, e.request.NeedsSettings → ∃ v, y.settings = some v ∧ e.request.AgreesWith v
  closing : ∀ e ∈ es, e.request = .close → mayClose

namespace Passage

variable {mayClose : Prop} {x y z : Seeder} {es later : List Exchange}

/-- Nothing is called. -/
theorem quiet (h : Continues x y) (hclient : y.client = x.client) : Passage mayClose x [] y where
  continues := h
  single := trivial
  held := by rw [hclient]; rfl
  agreeing := nofun
  closing := nofun

theorem trans (h : Passage mayClose x es y) (h' : Passage mayClose y later z) :
    Passage mayClose x (es ++ later) z where
  continues := h.continues.trans h'.continues
  single := oneClient_append.mpr ⟨h.single, h.held ▸ h'.single⟩
  held := by rw [openClients_append, h.held, h'.held]
  agreeing := by
    intro e hmem hneeds
    rcases List.mem_append.mp hmem with hfirst | hlater
    · obtain ⟨v, hv, hagrees⟩ := h.agreeing e hfirst hneeds
      exact ⟨v, h'.continues.kept hv, hagrees⟩
    · exact h'.agreeing e hlater hneeds
  closing := List.forall_mem_append.mpr ⟨h.closing, h'.closing⟩

theorem mono {mayClose' : Prop} (h : Passage mayClose x es y) (himp : mayClose → mayClose') :
    Passage mayClose' x es y :=
  { h with closing := fun e he hclose => himp (h.closing e he hclose) }

/-- Calls over the client that the seeder has. -/
theorem of_uses {uri : Text} (hclient : x.client = some uri)
    (huses : ∀ e ∈ es, e.request.UsesClient)
    (hagrees : ∀ e ∈ es, e.request.NeedsSettings →
      ∃ v, x.settings = some v ∧ e.request.AgreesWith v) : Passage mayClose x es x where
  continues := .refl x
  single := by
    rw [hclient]
    exact (oneClient_of_usesClient huses).1
  held := by
    rw [hclient]
    exact (oneClient_of_usesClient huses).2
  agreeing := hagrees
  closing := by
    rintro ⟨request, accepted⟩ he rfl
    exact (huses _ he).elim

/-- A client is made where there is none, for the address in the settings. -/
theorem of_connect {v : Settings} (hnone : x.client = none) (accepted : Bool) (h : Continues x y)
    (hsettings : y.settings = some v) (hclient : y.client = if accepted then some v.uri else none) :
    Passage mayClose x [⟨.connect v.uri, accepted⟩] y where
  continues := h
  single := by
    rw [hnone]
    exact ⟨rfl, trivial⟩
  held := by
    rw [hnone, hclient]
    cases accepted <;> rfl
  agreeing := by
    intro e he _
    cases List.mem_singleton.mp he
    exact ⟨v, hsettings, rfl⟩
  closing := by
    intro e he hclose
    cases List.mem_singleton.mp he
    cases hclose

/-- The client that there is is closed, or stays. -/
theorem of_close {uri : Text} (hold : x.client = some uri) (accepted : Bool) (h : Continues x y)
    (hclient : y.client = if accepted then none else some uri) :
    Passage True x [⟨.close, accepted⟩] y where
  continues := h
  single := by
    rw [hold]
    exact ⟨⟨uri, rfl⟩, trivial⟩
  held := by
    rw [hold, hclient]
    cases accepted <;> rfl
  agreeing := by
    intro e he hneeds
    cases List.mem_singleton.mp he
    cases hneeds
  closing := fun _ _ _ => trivial

/-- A client that may not be closed is kept. -/
theorem client_kept {uri : Text} (h : Passage False x es y) (hclient : x.client = some uri) :
    y.client = some uri := by
  have hsingle := h.single
  have hheld := h.held
  rw [hclient] at hsingle hheld
  have hopen := openClients_of_not_closed hsingle fun hmem => h.closing _ hmem rfl
  exact Option.toList_eq_singleton_iff.mp (hheld.symm.trans hopen)

/-- Where settings do not resolve, a client that may not be closed is left as it is. -/
theorem client_unresolved {f : Failure} (h : Passage False x es y)
    (hf : x.resolution.1 = .error f) : y.client = x.client := by
  cases hclient : x.client with
  | some uri => exact h.client_kept hclient
  | none =>
      -- The first exchange would have to make a client, and that takes settings.
      have hempty : es = [] := by
        rcases es with _ | ⟨⟨request, accepted⟩, rest⟩
        · rfl
        · have hfits := h.single.1
          rw [hclient] at hfits
          cases request with
          | connect uri =>
              obtain ⟨v, hv, -⟩ := h.agreeing _ List.mem_cons_self trivial
              have hresolution := h.continues.resolution
              rw [resolution_of_settings hv, hf] at hresolution
              cases hresolution
          | _ =>
              obtain ⟨other, hother⟩ := hfits
              cases hother
      have hheld := h.held
      rw [hempty, hclient] at hheld
      cases hy : y.client with
      | none => rfl
      | some uri => simp [openClients, hy] at hheld

end Passage

end Seeder

namespace Action

open Seeder

/-- From a seeder as required the action is a passage, and if it succeeds it
leaves the seeder as promised. -/
def Passes (mayClose : Prop) (required : Seeder → Prop) (action : Action α)
    (promised : α → Seeder → Prop) : Prop :=
  ∀ x es r y, required x → Leads action x es r y →
    Passage mayClose x es y ∧ ∀ a, r = .ok a → promised a y

namespace Passes

variable {mayClose : Prop} {required : Seeder → Prop} {action : Action α}
  {promised : α → Seeder → Prop}

theorem bind {f : α → Action β} {later : β → Seeder → Prop}
    (haction : Passes mayClose required action promised)
    (hf : ∀ a, Passes mayClose (promised a) (f a) later) :
    Passes mayClose required (action >>= f) later := by
  intro x es r z hx hleads
  obtain ⟨e, rfl, hfirst⟩ | ⟨a, y, first, rest, rfl, hfirst, hrest⟩ := hleads.of_bind
  · exact ⟨(haction x es _ z hx hfirst).1, nofun⟩
  · obtain ⟨hpassage, hpromised⟩ := haction x first _ y hx hfirst
    obtain ⟨hpassage', hlater⟩ := hf a y rest r z (hpromised a rfl) hrest
    exact ⟨hpassage.trans hpassage', hlater⟩

theorem pure (a : α) (h : ∀ x, required x → promised a x) :
    Passes mayClose required (Pure.pure a) promised := by
  intro x es r y hx hleads
  obtain ⟨rfl, rfl, rfl⟩ := hleads.of_pure
  refine ⟨.quiet (.refl y) rfl, ?_⟩
  rintro _ ⟨⟩
  exact h y hx

/-- What is required and what is promised may be more and less. -/
theorem mono {required' : Seeder → Prop} {promised' : α → Seeder → Prop}
    (h : Passes mayClose required action promised) (hrequired : ∀ x, required' x → required x)
    (hpromised : ∀ a x, promised a x → promised' a x) :
    Passes mayClose required' action promised' := by
  intro x es r y hx hleads
  obtain ⟨hpassage, hresult⟩ := h x es r y (hrequired x hx) hleads
  exact ⟨hpassage, fun a ha => hpromised a y (hresult a ha)⟩

/-- What no passage without a closing changes, is there afterwards. -/
theorem keeping {kept : Seeder → Prop} (h : Passes False required action promised)
    (hkept : ∀ {x es y}, Passage False x es y → kept x → kept y) :
    Passes False (fun x => required x ∧ kept x) action (fun a x => promised a x ∧ kept x) := by
  intro x es r y hx hleads
  obtain ⟨hpassage, hresult⟩ := h x es r y hx.1 hleads
  exact ⟨hpassage, fun a ha => ⟨hresult a ha, hkept hpassage hx.2⟩⟩

/-- What is required may hold apart from the seeder. -/
theorem of_and {p : Prop} (h : p → Passes mayClose required action promised) :
    Passes mayClose (fun x => p ∧ required x) action promised := by
  rintro x es r y ⟨hp, hx⟩ hleads
  exact h hp x es r y hx hleads

/-- What is required may be known by a witness. -/
theorem of_exists {ι : Type} {required : ι → Seeder → Prop}
    (h : ∀ i, Passes mayClose (required i) action promised) :
    Passes mayClose (fun x => ∃ i, required i x) action promised := by
  rintro x es r y ⟨i, hx⟩ hleads
  exact h i x es r y hx hleads

end Passes

end Action

end InitialLoad
