import InitialLoad.Proofs.ClientLife
import InitialLoad.Proofs.Histories

/-!
# The passages of the seeder

Every action of the seeder is a passage, from asking for the settings to the whole
program.  Only `closeClient`, and with it the program at its end, may close the
client; an action that goes over a client gets it first.
-/

namespace InitialLoad

variable {α β : Type}

namespace Action

open Seeder

namespace Passes

variable {mayClose : Prop} {required : Seeder → Prop} {action : Action α}
  {promised : α → Seeder → Prop}

theorem closing (h : Passes False required action promised) :
    Passes True required action promised := by
  intro x es r y hx hleads
  obtain ⟨hpassage, hresult⟩ := h x es r y hx hleads
  exact ⟨hpassage.mono fun _ => trivial, hresult⟩

theorem writeAll (records : List LogRecord) :
    Passes mayClose required (Action.writeAll records) fun _ => required := by
  intro x es r y hx hleads
  obtain ⟨rfl, -, rfl⟩ := hleads.of_writeAll
  exact ⟨.quiet (.refl y) rfl, fun _ _ => hx⟩

theorem fail (f : Failure) :
    Passes mayClose required (Action.fail f : Action α) fun _ => required := by
  intro x es r y hx hleads
  obtain ⟨rfl, rfl⟩ := hleads.of_fail
  exact ⟨.quiet (.refl y) rfl, fun _ _ => hx⟩

theorem attempt (h : Passes mayClose required action promised) :
    Passes mayClose required (Action.attempt action) fun _ _ => True := by
  intro x es r y hx hleads
  obtain ⟨result, -, haction⟩ := hleads.of_attempt
  exact ⟨(h x es result y hx haction).1, fun _ _ => trivial⟩

/-- A job that goes over the client that there is and agrees with the settings. -/
theorem ofJob {job : Job α} {allowed : Request → Prop} (hjob : Job.Sends allowed job)
    (huses : ∀ q, allowed q → q.UsesClient)
    (hrequired : ∀ x, required x → (∃ uri, x.client = some uri) ∧
      ∀ q, allowed q → q.NeedsSettings → ∃ v, x.settings = some v ∧ q.AgreesWith v) :
    Passes mayClose required (Action.ofJob job) fun _ => required := by
  intro x es r y hx hleads
  obtain ⟨hreaches, rfl⟩ := hleads.of_ofJob
  have hsent := Procedure.Sends.of_reaches hjob hreaches
  obtain ⟨⟨uri, huri⟩, hagrees⟩ := hrequired y hx
  exact ⟨.of_uses huri (fun e he => huses _ (hsent e he)) fun e he => hagrees _ (hsent e he),
    fun _ _ => hx⟩

end Passes

end Action

namespace Seeder

open InitialLoad.Action (Leads Passes)

/-! ## Settings and client -/

/-- Asking for the settings leads to what they resolve to, without a call. -/
theorem leads_getSettings {x y : Seeder} {es : List Exchange} {r : Except Failure Settings}
    (h : Leads getSettings x es r y) : es = [] ∧ r = x.resolution.1 ∧ y = x.remembering := by
  unfold Leads at h
  rw [run_getSettings] at h
  obtain ⟨hes, hresult⟩ := h.of_writing.of_done
  exact ⟨hes, congrArg Prod.fst hresult, congrArg Prod.snd hresult⟩

theorem getSettings_passes :
    Passes False (fun _ => True) getSettings fun v x => x.settings = some v := by
  intro x es r y _ hleads
  obtain ⟨rfl, rfl, rfl⟩ := leads_getSettings hleads
  exact ⟨.quiet (.remembering x) (client_remembering x), fun v hv => settings_remembering hv⟩

/-- The settings, while there is a client. -/
theorem getSettings_keeps (uri : Text) :
    Passes False (HasClient uri) getSettings fun v x => x.settings = some v ∧ HasClient uri x :=
  (getSettings_passes.keeping Passage.client_kept).mono (fun _ hx => ⟨trivial, hx⟩)
    fun _ _ hx => hx

/-- A client that was made is the one for the settings. -/
theorem connect_passes (v : Settings) :
    Passes False (fun x => x.settings = some v ∧ x.client = none)
      (do
        Action.ofJob (Job.request (.connect v.uri))
        Action.update fun s => { s with client := some v.uri }
        return v.uri)
      fun uri => HasClient uri := by
  rintro x es r y ⟨hsettings, hnone⟩ hleads
  obtain ⟨e, rfl, rfl, rfl⟩ | ⟨a, later, rfl, hrest⟩ := hleads.of_request_bind
  · exact ⟨.of_connect hnone false (.refl y) hsettings hnone, nofun⟩
  · cases hrest
    refine ⟨.of_connect hnone true ⟨rfl, rfl, Or.inl rfl⟩ hsettings rfl, ?_⟩
    rintro uri ⟨⟩
    rfl

theorem getClient_passes :
    Passes False (fun _ => True) getClient fun uri => HasClient uri := by
  intro x es r y _ hleads
  have hstate := hleads.of_state_bind
  cases hclient : x.client with
  | some uri =>
      simp only [hclient] at hstate
      obtain ⟨rfl, rfl, rfl⟩ := hstate.of_pure
      refine ⟨.quiet (.refl y) rfl, ?_⟩
      rintro _ ⟨⟩
      exact hclient
  | none =>
      simp only [hclient] at hstate
      -- Asking for the settings does not make a client, so there is still none.
      obtain ⟨e, rfl, hsettings⟩ | ⟨v, x', first, later, rfl, hsettings, hconnect⟩ := hstate.of_bind
      · exact ⟨(getSettings_passes x es _ y trivial hsettings).1, nofun⟩
      · obtain ⟨hpassage, hkept⟩ := getSettings_passes x first _ x' trivial hsettings
        have hnone : x'.client = none := by
          obtain ⟨-, -, rfl⟩ := leads_getSettings hsettings
          rw [client_remembering, hclient]
        obtain ⟨hpassage', hresult⟩ := connect_passes v x' later r y ⟨hkept v rfl, hnone⟩ hconnect
        exact ⟨hpassage.trans hpassage', hresult⟩

/-- The seeder has this client and these settings. -/
def Ready (uri : Text) (v : Settings) (x : Seeder) : Prop :=
  x.client = some uri ∧ x.settings = some v

theorem Passage.ready_kept {uri : Text} {v : Settings} {x y : Seeder} {es : List Exchange}
    (h : Passage False x es y) (hx : Ready uri v x) : Ready uri v y :=
  ⟨h.client_kept hx.1, h.continues.kept hx.2⟩

/-- Choosing a name asks for the settings at most. -/
theorem chosenName_passes (uri : Text) (name : Option Text) :
    Passes False (HasClient uri) (chosenName name) fun chosen x =>
      x.client = some uri ∧
        (name = none → ∃ v, x.settings = some v ∧ chosen = v.databaseName) := by
  have hsettings : Passes False (HasClient uri) (do return (← getSettings).databaseName)
      fun chosen x => x.client = some uri ∧
        (name = none → ∃ v, x.settings = some v ∧ chosen = v.databaseName) :=
    (getSettings_keeps uri).bind fun v => .pure _ fun x hx => ⟨hx.2, fun _ => ⟨v, hx.1, rfl⟩⟩
  cases name with
  | none => exact hsettings
  | some n =>
      simp only [chosenName]
      split
      · exact hsettings
      · have hsome : some n ≠ none := Option.some_ne_none n
        exact .pure n fun x hx => ⟨hx, fun hnone => absurd hnone hsome⟩

theorem getDatabase_passes (name : Option Text) :
    Passes False (fun _ => True) (getDatabase name) fun database x =>
      ∃ uri, x.client = some uri ∧
        (name = none → ∃ v, x.settings = some v ∧ database = v.databaseName) := by
  refine getClient_passes.bind fun uri => (chosenName_passes uri name).bind fun chosen => ?_
  intro x es r y hx hleads
  have hnamed := hleads.of_state_bind
  obtain ⟨rfl, rfl, rfl⟩ := hnamed.of_ofExcept
  refine ⟨.quiet (.refl y) rfl, ?_⟩
  intro database hdatabase
  rw [databaseNamed_ok hdatabase]
  exact ⟨uri, hx⟩

theorem ping_passes : Passes False (fun _ => True) ping fun _ x => ∃ uri, HasClient uri x := by
  refine getClient_passes.bind fun uri => ?_
  have hping : Job.Sends (· = .ping) (Job.request .ping) := .request rfl
  have hpasses : Passes False (HasClient uri) (Action.ofJob (Job.request .ping))
      fun _ => HasClient uri := by
    refine .ofJob hping ?_ fun x hx => ⟨⟨uri, hx⟩, ?_⟩
    · rintro _ rfl
      trivial
    · rintro _ rfl ⟨⟩
  exact hpasses.mono (fun _ hx => hx) fun _ x hx => ⟨uri, hx⟩

theorem closeClient_passes :
    Passes True (fun _ => True) closeClient fun _ x => x.client = none := by
  intro x es r y _ hleads
  have hstate := hleads.of_state_bind
  cases hclient : x.client with
  | none =>
      simp only [hclient] at hstate
      obtain ⟨rfl, -, rfl⟩ := hstate.of_pure
      exact ⟨.quiet (.refl y) rfl, fun _ _ => hclient⟩
  | some uri =>
      simp only [hclient] at hstate
      obtain ⟨e, rfl, rfl, rfl⟩ | ⟨a, later, rfl, hrest⟩ := hstate.of_request_bind
      · exact ⟨.of_close hclient false (.refl y) hclient, nofun⟩
      · obtain ⟨rfl, rfl⟩ := hrest.of_update
        exact ⟨.of_close hclient true ⟨rfl, rfl, Or.inl rfl⟩ rfl, fun _ _ => rfl⟩

/-! ## The program -/

/-- The calls of a seed and of reading back. -/
def Loads (v : Settings) (q : Request) : Prop := q.UsesClient ∧ q.AgreesWith v

/-- The seed is of the database in the settings, and for their principal. -/
theorem initialSeed_sends (table : IndexTable) (v : Settings) :
    Job.Sends (Loads v) (initialSeed table v.databaseName v) := by
  have hcall : ∀ q, .ok q ∈ seedCalls table v → Loads v q := by
    intro q hq
    obtain rfl | ⟨_, _, _, rfl⟩ | ⟨_, _, rfl⟩ := mem_seedCalls hq
    · exact ⟨trivial, rfl, rfl, rfl, rfl⟩
    · exact ⟨trivial, rfl⟩
    · exact ⟨trivial, rfl⟩
  unfold initialSeed Job.Sends
  rw [Seeding.seed_run]
  intro start
  refine sends_enact ?_ hcall
  exact fun finish => trivial

theorem verify_sends (v : Settings) :
    Job.Sends (Loads v) (Seeding.verify v.databaseName) :=
  Seeding.verify_sends ⟨trivial, rfl⟩ ⟨trivial, rfl⟩

/-- A job that loads goes over the client and agrees with the settings. -/
theorem loading_passes {job : Job α} {uri : Text} {v : Settings} (hjob : Job.Sends (Loads v) job) :
    Passes False (Ready uri v) (Action.ofJob job) fun _ => Ready uri v :=
  .ofJob hjob (fun _ hq => hq.1) fun _ hx => ⟨⟨uri, hx.1⟩, fun _ hq _ => ⟨v, hx.2, hq.2⟩⟩

theorem seed_passes (table : IndexTable) (uri : Text) (v : Settings) :
    Passes False (Ready uri v) (seed table v.databaseName none) fun _ => Ready uri v := by
  rw [seed_eq]
  -- The settings are asked for once more; they are those that are kept.
  have hsame : Passes False (Ready uri v) getSettings fun w x => w = v ∧ Ready uri v x := by
    refine (getSettings_passes.keeping Passage.ready_kept).mono (fun _ hx => ⟨trivial, hx⟩) ?_
    rintro w x ⟨hw, hx⟩
    exact ⟨Option.some.inj (hw.symm.trans hx.2), hx⟩
  refine hsame.bind fun w => .of_and fun hw => ?_
  subst hw
  exact loading_passes (initialSeed_sends table w)

/-- What a run does once it has a client. -/
theorem load_passes (table : IndexTable) (uri : Text) :
    Passes False (HasClient uri) (load table) fun _ _ => True := by
  have hdatabase : Passes False (HasClient uri) (getDatabase none)
      fun database x => ∃ v, database = v.databaseName ∧ Ready uri v x := by
    refine ((getDatabase_passes none).keeping Passage.client_kept).mono
      (fun _ hx => ⟨trivial, hx⟩) ?_
    rintro database x ⟨⟨_, -, hname⟩, hx⟩
    obtain ⟨v, hv, hdatabase⟩ := hname rfl
    exact ⟨v, hdatabase, hx, hv⟩
  refine (Passes.writeAll _).bind fun _ => hdatabase.bind fun database => ?_
  refine .of_exists fun v => .of_and fun hv => ?_
  subst hv
  refine (seed_passes table uri v).bind fun summary => (Passes.writeAll _).bind fun _ => ?_
  refine (loading_passes (verify_sends v)).bind fun present => ?_
  exact (Passes.writeAll _).bind fun _ => .pure summary fun _ _ => trivial

/-- **A run is a passage** that does not close the client. -/
theorem run_passes (table : IndexTable) :
    Passes False (fun _ => True) (run table) fun _ _ => True := by
  rw [run_eq]
  exact ping_passes.bind fun _ => .of_exists fun uri => load_passes table uri

/-- **The program is a passage** that may close the client in the end. -/
theorem exitStatus_passes (table : IndexTable) :
    Passes True (fun _ => True) (exitStatus table) fun _ x => x.client = none := by
  refine (run_passes table).closing.attempt.bind fun result => ?_
  cases result with
  | ok summary => exact closeClient_passes.bind fun _ => .pure 0 fun _ hx => hx
  | error f =>
      simp only
      split
      · exact closeClient_passes.bind fun _ => .fail f
      · refine (Passes.writeAll _).bind fun _ => closeClient_passes.bind fun _ => ?_
        exact .pure 1 fun _ hx => hx

end Seeder

end InitialLoad
