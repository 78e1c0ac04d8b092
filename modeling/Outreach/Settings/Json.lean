import Outreach.Json.Record
import Outreach.Settings.Basic

/-!
# Settings as values

Settings are read from a record of sections. A field that is missing has its usual value, and a
section that is missing is as usual.
-/

namespace Outreach.Settings

open Json Json.Fields

def socket? (j : Json) : Option UInt16 := (j.countUpTo? 0xffff).map (·.toUInt16)

def size? (j : Json) : Option Nat := j.count?.map UInt64.toNat

def Api.ofJson? : Json → Option Api := record? do
  return { host := ← withDefault "host" Usual.host text?
           httpSocket := ← withDefault "http_port" Usual.httpSocket socket?
           frontendOrigin := ← withDefault "frontend_origin" Usual.frontendOrigin text? }

def Metrics.ofJson? : Json → Option Metrics := record? do
  return { enabled := ← withDefault "enabled" Usual.metricsEnabled bool?
           socket := ← withDefault "port" Usual.metricsSocket socket? }

def Campaigns.ofJson? : Json → Option Campaigns := record? do
  return { completionDelay := ← withDefault "completion_delay_ms" Usual.completionDelay count?
           rates := ⟨← withDefault "delivery_rate" Usual.delivery float?,
             ← withDefault "open_rate" Usual.opening float?,
             ← withDefault "click_rate" Usual.click float?⟩
           samples := ⟨← withDefault "preview_sample_size" Usual.preview size?,
             ← withDefault "insights_sample_size" Usual.insights size?⟩ }

def Auth.ofJson? : Json → Option Auth := record? do
  return { adminName := ← withDefault "admin_name" Usual.adminName text?
           adminEmail := ← withDefault "admin_email" Usual.adminEmail text?
           adminPassword := ← withDefault "admin_password" Usual.adminPassword text?
           tokenHours := ← withDefault "token_ttl_hours" Usual.tokenHours whole? }

def seedOfJson? : Json → Option Bool := record? (withDefault "enabled" Usual.seed bool?)

/-- A section that is missing is as usual, whatever its fields would be. -/
def ofJson? : Json → Option Settings := record? do
  return { nodeId := ← withDefault "node_id" Usual.nodeId text?
           api := ← withDefault "api" .usual Api.ofJson?
           metrics := ← withDefault "metrics" .usual Metrics.ofJson?
           campaigns := ← withDefault "campaigns" .usual Campaigns.ofJson?
           auth := ← withDefault "auth" .usual Auth.ofJson?
           seed := ← withDefault "seed" Usual.seed seedOfJson? }

end Outreach.Settings
