import Mathlib.Data.List.Nodup
import Outreach.Proofs.Json.Records
import Outreach.Settings.Json

/-!
# The places of settings

Settings are seventeen single ones, each at a place of its own, alone or in a section. A document is read
exactly if each place is settled by what the document gives for it: by the value that is given, or by the
usual one if none is. A section that is missing is as usual, and so is a section with nothing in it, so
it does not matter on which of both ways a place lacks a value.
-/

namespace Outreach.Settings

open Json Json.Fields

/-! ## Places -/

inductive Section where
  | api
  | metrics
  | campaigns
  | auth
  | seed
deriving DecidableEq

namespace Section

def name : Section → String
  | .api => "api"
  | .metrics => "metrics"
  | .campaigns => "campaigns"
  | .auth => "auth"
  | .seed => "seed"

/-- The names in a section, in their order. -/
def names : Section → List String
  | .api => ["host", "http_port", "frontend_origin"]
  | .metrics => ["enabled", "port"]
  | .campaigns => ["completion_delay_ms", "delivery_rate", "open_rate", "click_rate",
    "preview_sample_size", "insights_sample_size"]
  | .auth => ["admin_name", "admin_email", "admin_password", "token_ttl_hours"]
  | .seed => ["enabled"]

def Value : Section → Type
  | .api => Api
  | .metrics => Metrics
  | .campaigns => Campaigns
  | .auth => Auth
  | .seed => Bool

def get : (sec : Section) → Settings → sec.Value
  | .api, s => s.api
  | .metrics, s => s.metrics
  | .campaigns, s => s.campaigns
  | .auth, s => s.auth
  | .seed, s => s.seed

/-- How the value of a section is read. -/
def read? : (sec : Section) → Json → Option sec.Value
  | .api => Api.ofJson?
  | .metrics => Metrics.ofJson?
  | .campaigns => Campaigns.ofJson?
  | .auth => Auth.ofJson?
  | .seed => seedOfJson?

end Section

/-- No two sections have one name. -/
theorem Section.name_inj {sec sec' : Section} : sec.name = sec'.name ↔ sec = sec' := by
  cases sec <;> cases sec' <;> decide

/-- The name of the service stands beside the sections. -/
theorem Section.name_ne (sec : Section) : sec.name ≠ "node_id" := by
  cases sec <;> decide

/-- The names in a document, in their order. -/
def names : List String := ["node_id", "api", "metrics", "campaigns", "auth", "seed"]

theorem mem_names (sec : Section) : sec.name ∈ names := by
  cases sec <;> decide

/-- The places of single settings. -/
inductive Place where
  | nodeId
  | host
  | httpSocket
  | frontendOrigin
  | metricsEnabled
  | metricsSocket
  | completionDelay
  | delivery
  | opening
  | click
  | preview
  | insights
  | adminName
  | adminEmail
  | adminPassword
  | tokenHours
  | seed
deriving DecidableEq

namespace Place

/-- The section that a place is in, unless it is in none. -/
def section? : Place → Option Section
  | .nodeId => none
  | .host | .httpSocket | .frontendOrigin => some .api
  | .metricsEnabled | .metricsSocket => some .metrics
  | .completionDelay | .delivery | .opening | .click | .preview | .insights => some .campaigns
  | .adminName | .adminEmail | .adminPassword | .tokenHours => some .auth
  | .seed => some .seed

/-- The name of a place in its section. -/
def name : Place → String
  | .nodeId => "node_id"
  | .host => "host"
  | .httpSocket => "http_port"
  | .frontendOrigin => "frontend_origin"
  | .metricsEnabled => "enabled"
  | .metricsSocket => "port"
  | .completionDelay => "completion_delay_ms"
  | .delivery => "delivery_rate"
  | .opening => "open_rate"
  | .click => "click_rate"
  | .preview => "preview_sample_size"
  | .insights => "insights_sample_size"
  | .adminName => "admin_name"
  | .adminEmail => "admin_email"
  | .adminPassword => "admin_password"
  | .tokenHours => "token_ttl_hours"
  | .seed => "enabled"

def Value : Place → Type
  | .nodeId | .host | .frontendOrigin | .adminName | .adminEmail | .adminPassword => String
  | .httpSocket | .metricsSocket => UInt16
  | .metricsEnabled | .seed => Bool
  | .completionDelay => UInt64
  | .delivery | .opening | .click => Float
  | .preview | .insights => Nat
  | .tokenHours => Int

def get : (p : Place) → Settings → p.Value
  | .nodeId, s => s.nodeId
  | .host, s => s.api.host
  | .httpSocket, s => s.api.httpSocket
  | .frontendOrigin, s => s.api.frontendOrigin
  | .metricsEnabled, s => s.metrics.enabled
  | .metricsSocket, s => s.metrics.socket
  | .completionDelay, s => s.campaigns.completionDelay
  | .delivery, s => s.campaigns.rates.delivery
  | .opening, s => s.campaigns.rates.opening
  | .click, s => s.campaigns.rates.click
  | .preview, s => s.campaigns.samples.preview
  | .insights, s => s.campaigns.samples.insights
  | .adminName, s => s.auth.adminName
  | .adminEmail, s => s.auth.adminEmail
  | .adminPassword, s => s.auth.adminPassword
  | .tokenHours, s => s.auth.tokenHours
  | .seed, s => s.seed

/-- How the value of a place is read. -/
def read? : (p : Place) → Json → Option p.Value
  | .nodeId | .host | .frontendOrigin | .adminName | .adminEmail | .adminPassword => text?
  | .httpSocket | .metricsSocket => socket?
  | .metricsEnabled | .seed => bool?
  | .completionDelay => count?
  | .delivery | .opening | .click => float?
  | .preview | .insights => size?
  | .tokenHours => whole?

/-- What a document gives for a place. -/
def given? (p : Place) (doc : Json) : Option Json :=
  match p.section? with
  | none => doc.given? names p.name
  | some sec => (doc.given? names sec.name).bind (·.given? sec.names p.name)

theorem given?_of_section {p : Place} {sec : Section} (inside : p.section? = some sec)
    (doc : Json) :
    p.given? doc = (doc.given? names sec.name).bind (·.given? sec.names p.name) := by
  unfold given?
  rw [inside]

/-- Only the name of the service is in no section. -/
theorem eq_nodeId {p : Place} (outside : p.section? = none) : p = .nodeId := by
  cases p with
  | nodeId => rfl
  | _ => cases outside

/-- A place has the value that is given for it, and its usual value if none is given. -/
def Settled (p : Place) (given : Option Json) (s : Settings) : Prop :=
  given.elim (some (p.get .usual)) p.read? = some (p.get s)

end Place

/-- The places in a section, in their order. -/
def Section.places : Section → List Place
  | .api => [.host, .httpSocket, .frontendOrigin]
  | .metrics => [.metricsEnabled, .metricsSocket]
  | .campaigns => [.completionDelay, .delivery, .opening, .click, .preview, .insights]
  | .auth => [.adminName, .adminEmail, .adminPassword, .tokenHours]
  | .seed => [.seed]

theorem Section.map_name_places (sec : Section) : sec.places.map Place.name = sec.names := by
  cases sec <;> rfl

theorem Section.nodup_names (sec : Section) : sec.names.Nodup := by
  cases sec <;> decide

namespace Place

variable {p q : Place} {sec : Section}

theorem mem_places (inside : p.section? = some sec) : p ∈ sec.places := by
  cases p <;> cases inside <;> decide

theorem name_mem (inside : p.section? = some sec) : p.name ∈ sec.names := by
  rw [← sec.map_name_places]
  exact List.mem_map_of_mem (mem_places inside)

/-- No two places of a section have one name. -/
theorem eq_of_name_eq (hp : p.section? = some sec) (hq : q.section? = some sec)
    (same : p.name = q.name) : p = q := by
  have distinct : (sec.places.map name).Nodup := sec.map_name_places ▸ sec.nodup_names
  exact List.inj_on_of_nodup_map distinct (mem_places hp) (mem_places hq) same

end Place

def ofValues (v : (p : Place) → p.Value) : Settings where
  nodeId := v .nodeId
  api := ⟨v .host, v .httpSocket, v .frontendOrigin⟩
  metrics := ⟨v .metricsEnabled, v .metricsSocket⟩
  campaigns := ⟨v .completionDelay, ⟨v .delivery, v .opening, v .click⟩, ⟨v .preview, v .insights⟩⟩
  auth := ⟨v .adminName, v .adminEmail, v .adminPassword, v .tokenHours⟩
  seed := v .seed

@[simp] theorem get_ofValues (v : (p : Place) → p.Value) (p : Place) :
    p.get (ofValues v) = v p := by
  cases p <;> rfl

attribute [ext] Settings Api Metrics Campaigns Auth Campaign.Rates Audience.SampleSizes

variable {doc j : Json} {s : Settings}

/-! ## Sections -/

namespace Section

/-- Every place of a section is settled by what is given for its name. -/
def Told (sec : Section) (given : String → Option Json) (s : Settings) : Prop :=
  ∀ p : Place, p.section? = some sec → p.Settled (given p.name) s

theorem read?_api : Api.ofJson? j = some s.api ↔
    j.IsRecord api.names ∧ api.Told (j.given? api.names ·) s := by
  unfold Api.ofJson?
  simp only [withDefault_eq_field]
  refine (Reads.record?_eq_some_iff (.field _ _ _ fun _ ↦ .field _ _ _ fun _ ↦ .field _ _ _ fun _ ↦
    .done _) (nodup_names .api)).trans (and_congr_right fun _ ↦ ?_)
  obtain ⟨_, _, _, _, _, _⟩ := s
  constructor
  · rintro ⟨_, host, _, socket, _, origin, rfl⟩ p hp
    cases p <;> cases hp
    · exact host
    · exact socket
    · exact origin
  · intro h
    exact ⟨_, h .host rfl, _, h .httpSocket rfl, _, h .frontendOrigin rfl, rfl⟩

theorem read?_metrics : Metrics.ofJson? j = some s.metrics ↔
    j.IsRecord metrics.names ∧ metrics.Told (j.given? metrics.names ·) s := by
  unfold Metrics.ofJson?
  simp only [withDefault_eq_field]
  refine (Reads.record?_eq_some_iff (.field _ _ _ fun _ ↦ .field _ _ _ fun _ ↦ .done _)
    (nodup_names .metrics)).trans (and_congr_right fun _ ↦ ?_)
  obtain ⟨_, _, _, _, _, _⟩ := s
  constructor
  · rintro ⟨_, enabled, _, socket, rfl⟩ p hp
    cases p <;> cases hp
    · exact enabled
    · exact socket
  · intro h
    exact ⟨_, h .metricsEnabled rfl, _, h .metricsSocket rfl, rfl⟩

theorem read?_campaigns : Campaigns.ofJson? j = some s.campaigns ↔
    j.IsRecord campaigns.names ∧ campaigns.Told (j.given? campaigns.names ·) s := by
  unfold Campaigns.ofJson?
  simp only [withDefault_eq_field]
  refine (Reads.record?_eq_some_iff (.field _ _ _ fun _ ↦ .field _ _ _ fun _ ↦ .field _ _ _ fun _ ↦
    .field _ _ _ fun _ ↦ .field _ _ _ fun _ ↦ .field _ _ _ fun _ ↦ .done _)
    (nodup_names .campaigns)).trans (and_congr_right fun _ ↦ ?_)
  obtain ⟨_, _, _, ⟨_, ⟨_, _, _⟩, ⟨_, _⟩⟩, _, _⟩ := s
  constructor
  · rintro ⟨_, delay, _, delivery, _, opening, _, click, _, preview, _, insights, same⟩ p hp
    cases same
    cases p <;> cases hp
    · exact delay
    · exact delivery
    · exact opening
    · exact click
    · exact preview
    · exact insights
  · intro h
    exact ⟨_, h .completionDelay rfl, _, h .delivery rfl, _, h .opening rfl, _, h .click rfl,
      _, h .preview rfl, _, h .insights rfl, rfl⟩

theorem read?_auth : Auth.ofJson? j = some s.auth ↔
    j.IsRecord auth.names ∧ auth.Told (j.given? auth.names ·) s := by
  unfold Auth.ofJson?
  simp only [withDefault_eq_field]
  refine (Reads.record?_eq_some_iff (.field _ _ _ fun _ ↦ .field _ _ _ fun _ ↦ .field _ _ _ fun _ ↦
    .field _ _ _ fun _ ↦ .done _) (nodup_names .auth)).trans
    (and_congr_right fun _ ↦ ?_)
  obtain ⟨_, _, _, _, _, _⟩ := s
  constructor
  · rintro ⟨_, adminName, _, adminEmail, _, adminPassword, _, hours, rfl⟩ p hp
    cases p <;> cases hp
    · exact adminName
    · exact adminEmail
    · exact adminPassword
    · exact hours
  · intro h
    exact ⟨_, h .adminName rfl, _, h .adminEmail rfl, _, h .adminPassword rfl,
      _, h .tokenHours rfl, rfl⟩

theorem read?_seed : seedOfJson? j = some s.seed ↔
    j.IsRecord seed.names ∧ seed.Told (j.given? seed.names ·) s := by
  unfold seedOfJson?
  rw [withDefault_eq_field, ← bind_pure (Fields.field _ _ _)]
  refine (Reads.record?_eq_some_iff (.field _ _ _ fun _ ↦ .done _)
    (nodup_names .seed)).trans (and_congr_right fun _ ↦ ?_)
  constructor
  · rintro ⟨_, enabled, rfl⟩ p hp
    cases p <;> cases hp
    exact enabled
  · intro h
    exact ⟨_, h .seed rfl, rfl⟩

/-- A section is read from a value exactly if each of its places is settled by the value. -/
theorem read?_eq_some_iff (sec : Section) : sec.read? j = some (sec.get s) ↔
    j.IsRecord sec.names ∧ sec.Told (j.given? sec.names ·) s := by
  cases sec with
  | api => exact read?_api
  | metrics => exact read?_metrics
  | campaigns => exact read?_campaigns
  | auth => exact read?_auth
  | seed => exact read?_seed

/-- A section is the same in two settings exactly if each of its places is. -/
theorem get_eq_iff (sec : Section) {s' : Settings} :
    sec.get s = sec.get s' ↔ ∀ p : Place, p.section? = some sec → p.get s = p.get s' := by
  constructor
  · intro same p hp
    rcases s with ⟨_, _, _, _, _, _⟩
    rcases s' with ⟨_, _, _, _, _, _⟩
    cases p <;> cases hp <;> cases same <;> rfl
  · intro h
    cases sec with
    | api => exact Api.ext (h .host rfl) (h .httpSocket rfl) (h .frontendOrigin rfl)
    | metrics => exact Metrics.ext (h .metricsEnabled rfl) (h .metricsSocket rfl)
    | campaigns =>
      exact Campaigns.ext (h .completionDelay rfl)
        (Campaign.Rates.ext (h .delivery rfl) (h .opening rfl) (h .click rfl))
        (Audience.SampleSizes.ext (h .preview rfl) (h .insights rfl))
    | auth =>
      exact Auth.ext (h .adminName rfl) (h .adminEmail rfl) (h .adminPassword rfl)
        (h .tokenHours rfl)
    | seed => exact h .seed rfl

/-- The usual values of the fields make up the usual section: one with nothing in it is read as one that
is missing. -/
theorem read?_nothing (sec : Section) : sec.read? (.object []) = some (sec.get .usual) := by
  cases sec <;> rfl

/-- A section that is missing is as usual, and so is each place of it, as if the section were there
with nothing in it. -/
theorem settled_iff (sec : Section) (given : Option Json) :
    given.elim (some (sec.get .usual)) sec.read? = some (sec.get s) ↔
      (∀ j, given = some j → j.IsRecord sec.names) ∧
        sec.Told (fun name ↦ given.bind (·.given? sec.names name)) s := by
  cases given with
  | none =>
    have usual : some (sec.get .usual) = some (sec.get s) ↔ sec.Told (fun _ ↦ none) s := by
      rw [Option.some_inj, get_eq_iff]
      exact forall₂_congr fun p _ ↦ Option.some_inj.symm
    simpa using usual
  | some j => simpa using sec.read?_eq_some_iff

end Section

/-! ## Documents -/

/-- The document has the form of settings, and what it gives for a section that of the section. -/
structure WellFormed (doc : Json) : Prop where
  whole : doc.IsRecord names
  parts : ∀ (sec : Section) (j : Json), doc.given? names sec.name = some j → j.IsRecord sec.names

/-- Settings are read from a document exactly if it is well-formed and each place is settled by what
it gives for the place. -/
theorem ofJson?_eq_some_iff :
    ofJson? doc = some s ↔ WellFormed doc ∧ ∀ p : Place, p.Settled (p.given? doc) s := by
  have whole : ofJson? doc = some s ↔ doc.IsRecord names ∧
      Place.nodeId.Settled (doc.given? names "node_id") s ∧ ∀ sec : Section,
        (doc.given? names sec.name).elim (some (sec.get .usual)) sec.read? = some (sec.get s) := by
    unfold ofJson?
    simp only [withDefault_eq_field]
    refine (Reads.record?_eq_some_iff (.field _ _ _ fun _ ↦ .field _ _ _ fun _ ↦ .field _ _ _ fun _ ↦
      .field _ _ _ fun _ ↦ .field _ _ _ fun _ ↦ .field _ _ _ fun _ ↦ .done _)
      (show names.Nodup by decide)).trans (and_congr_right fun _ ↦ ?_)
    constructor
    · rintro ⟨_, nodeId, _, api, _, metrics, _, campaigns, _, auth, _, seed, rfl⟩
      refine ⟨nodeId, fun sec ↦ ?_⟩
      cases sec
      · exact api
      · exact metrics
      · exact campaigns
      · exact auth
      · exact seed
    · rintro ⟨nodeId, h⟩
      exact ⟨_, nodeId, _, h .api, _, h .metrics, _, h .campaigns, _, h .auth, _, h .seed, rfl⟩
  rw [whole]
  simp only [Section.settled_iff]
  constructor
  · rintro ⟨shape, nodeId, h⟩
    refine ⟨⟨shape, fun sec ↦ (h sec).1⟩, fun p ↦ ?_⟩
    cases inside : p.section? with
    | none =>
      rw [Place.eq_nodeId inside]
      exact nodeId
    | some sec =>
      rw [Place.given?_of_section inside]
      exact (h sec).2 p inside
  · rintro ⟨⟨shape, parts⟩, h⟩
    refine ⟨shape, h .nodeId, fun sec ↦ ⟨parts sec, fun p inside ↦ ?_⟩⟩
    show p.Settled ((doc.given? names sec.name).bind (·.given? sec.names p.name)) s
    rw [← Place.given?_of_section inside]
    exact h p

/-- What is read is known from what is given for each place. -/
theorem ofJson?_congr {doc' : Json} (form : WellFormed doc ↔ WellFormed doc')
    (same : WellFormed doc → ∀ p : Place, p.given? doc = p.given? doc') :
    ofJson? doc = ofJson? doc' := by
  ext s
  rw [ofJson?_eq_some_iff, ofJson?_eq_some_iff]
  constructor
  · rintro ⟨here, h⟩
    exact ⟨form.mp here, fun p ↦ same here p ▸ h p⟩
  · rintro ⟨there, h⟩
    have here := form.mpr there
    exact ⟨here, fun p ↦ same here p ▸ h p⟩

end Outreach.Settings
