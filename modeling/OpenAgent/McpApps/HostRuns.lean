import OpenAgent.Lib.Runs
import OpenAgent.McpApps.HostSteps

namespace OpenAgent.McpApps.Host

open Py Laws

def View.decides (view : View) : Token → Prop
  | .policy => ∃ task, view.task = some task ∧ task.settled = false
  | .request id => ∃ once, view.requests.get? id = some once ∧ once.busy = true

/-- Every session is in one place: in a call of `open`, in one view, handed over to be closed, or closed. The acts are
lawful, there is room, and at most one decision runs for a view. -/
structure Serves (o : Options) (s : Service) : Prop where
  lawful : Lawful law s.trace
  account : ∀ n, s.account n = if n < s.sessions then 1 else 0
  ended : ∀ k call, s.opens.get? k = some call → call.done = true → call.held = none
  room : s.listed.length + s.opens.size ≤ o.maxViews
  alone : ∀ v view, s.views.get? v = some view → ∀ a b, view.decides a → view.decides b → a = b

theorem Kept.serves {o : Options} {s : Service} (h : Kept o s) : Serves o s := by
  refine ⟨h.standing.lawful, h.custody.account, fun k call hk hd => ((h.custody.calls k call hk).done hd).1, ?_, ?_⟩
  · rw [listed_length]
    exact h.custody.room
  intro v view hv a b ha hb
  have hok := h.standing.views v view hv
  have htok : ∀ token, view.decides token → view.interactive = some token := by
    intro token ht
    cases token with
    | policy =>
      obtain ⟨task, htask, hset⟩ := ht
      exact hok.task task htask hset
    | request id =>
      obtain ⟨once, hid, hbusy⟩ := ht
      exact hok.once id once hid hbusy
  exact Option.some.inj ((htok a ha).symm.trans (htok b hb))

theorem initially_kept (o : Options) : Kept o {} := by
  refine ⟨⟨fun _ => rfl, Nat.zero_le _, fun _ _ => rfl, fun _ _ hk => by cases hk⟩, ⟨lawful_nil, ?_, ?_, ?_⟩⟩
  · intro _ _ hv
    cases hv
  · intro _ _
    exact ⟨rfl, fun _ hm => (by cases hm), fun hm => (by cases hm), fun _ hm => (by cases hm), fun _ _ _ hm => by cases hm⟩
  · intro _ _ _ hr
    cases hr

def sampleOptions : Options where
  platform :=
    { numeral := fun _ => "0", number := fun _ => 0, url := fun _ => some ⟨"https:", "", "", "https://a.b/"⟩,
      parse := fun value => some ⟨"https:", value, "a.b", "", ""⟩, isIP := fun _ => false, blob := fun _ => none,
      text := fun value => match value with
        | .str s => s
        | _ => "", finite := fun _ => true }
  maxViews := 1
  digest := fun _ => "digest"
  approvePolicy := true
  openLink := true
  sendMessage := true

def sampleSession : Json :=
  .obj [("resource", .obj [("contents", .arr [.obj [("uri", .str "ui://a"), ("mimeType", .str MCP_APP_MIME),
      ("text", .str "<p>"), ("_meta", .obj [("ui", .obj [("csp", .obj [("connectDomains",
        .arr [.str "https://a.b"])])])])]])]),
    ("tool", .obj [("_meta", .obj [("ui", .obj [("resourceUri", .str "ui://a")])])])]

/-- `authorize` passes. -/
def passes (client : Client) : List Event :=
  [.answers client (.owner (some "owner")), .answers client (.session (.obj [("authorized", .bool true)])),
    .answers client (.owner (some "owner")), .resumes client]

def opensView (k : Nat) : List Event :=
  [.opening .null, .ownerAnswers k (some (some "owner")), .untracks k, .continues k, .callsOpen k,
    .sessionAnswers k (some sampleSession), .untracks k, .continues k, .ownerAnswers k (some (some "owner")), .untracks k,
    .continues k]

/-- A view is opened, its policy is decided and its data are sent, a link is opened while the same request comes again, and
the view is closed; a second `open` is aborted. -/
def sampleRun : List Event :=
  opensView 0 ++ [Event.requests .data 0 true] ++ passes (.handler 0) ++ passes (.policy 0) ++ [Event.resumes (.policy 0),
    .approves 0 (some (.obj [("approvedCsp", .obj [("connectDomains", .arr [.str "HTTPS://A.B/"])])]))] ++
    passes (.policy 0) ++ [Event.resumes (.policy 0), .resumes (.handler 0)] ++ passes (.handler 0) ++
    [Event.requests .rpc 0 true] ++ passes (.handler 1) ++ [Event.body 1 (some (.obj [("id", .str "1"),
      ("method", .str "ui/open-link"), ("params", .obj [])]))] ++ passes (.handler 1) ++ [Event.starts 0 "1"] ++
    passes (.once 0 "1") ++ [Event.operates 0 "1" (some empty), .finishes 0 "1", .resumes (.handler 1)] ++
    passes (.handler 1) ++ [Event.requests .close 0 true] ++ passes (.handler 2) ++ [Event.closes 0, .opening .null,
      .ownerAnswers 1 (some (some "owner")), .untracks 1, .continues 1, .callsOpen 1, .revokeViews fun _ => true,
      .continues 1, .sessionAnswers 1 (some sampleSession), .untracks 1, .closes 1]

end OpenAgent.McpApps.Host
