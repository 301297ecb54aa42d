import SceneScript.Callback
import SceneScript.Program
/-!
The cutscene at the harbour, with its three callbacks.
-/

namespace SceneScript.Showcase

def routeVar : String := "route"

def metVar : String := "met_ferryman"

def harbourRoutes : Selector := .table routeVar [(0, "ferry")] "ashore"

def meetFerryman : List Effect := [.set metVar 1]

def remembersFerryman : Predicate := .equals metVar 1

def harbourCommands (route meet remembers : Nat) : List Command :=
  [.log "harbour cutscene begins",
    .soundPlay .bgm ⟨"bgm/harbour"⟩ 1,
    .image 0 (some ⟨"bg/harbour_dusk"⟩) (.ofMillis 500) .transparent .white,
    .boxState true,
    .portrait .left (some ⟨"chara/mira"⟩) (.ofMillis 300) .transparent .white,
    .text "Mira" "The last ferry leaves at dusk." true .left,
    .text "System" "A bell rings somewhere across the water." true .centre,
    .soundPlay .se ⟨"se/bell"⟩ 1,
    .choiceOf "Board the ferry,Stay ashore",
    .switch route,
    .label "ferry",
    .action meet,
    .timer 0 3 0,
    .text "Ferryman" "Three seconds, then we cast off." true .right,
    .timerStop,
    .flash .white (.ofMillis 200) (.ofMillis 100),
    .goto "epilogue",
    .label "ashore",
    .soundPlay .bgs ⟨"bgs/waves"⟩ 1,
    .text "Mira" "Then we wait for morning." true .left,
    .label "epilogue",
    .boxState false,
    .readModeStart,
    .readModeText "The harbour fell quiet.[下一行]Lanterns went out one by one.",
    .readModeClear,
    .readModeText "Morning would bring new tides.",
    .readModeEnd,
    .branch remembers "end",
    .log "the ferryman remembers you",
    .label "end",
    .soundStop .bgm (.ofMillis 500),
    .sceneLoad "world_map" .black (.ofMillis 400) false,
    .log "harbour cutscene ends"]

def harbour (r : Registry) : Registry × Program :=
  let (r, route) := r.addSelector harbourRoutes
  let (r, meet) := r.addAction meetFerryman
  let (r, remembers) := r.addPredicate remembersFerryman
  (r, .ofCommands (harbourCommands route meet remembers))

end SceneScript.Showcase
