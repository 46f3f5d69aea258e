import Sockd.C.Memory

/-!
# Skills and rules of the reference router (`reference/router-daemon.c`)

The global state, the loading of skills from the skills directory and the
building of the rule tables. The directory is an argument: what `readdir` gives,
and for each name what `access`, `open`, `fstat` and `mmap` find at the path
built from it. A character array is a `C.Field` of one byte less, the bound that
every `strncpy` of the source is given.
-/

namespace Sockd.Reference

open C

/-- `MAX_MAPPED_SKILLS`. -/
def maxMappedSkills : Nat := 256

/-- `MAX_DEDUP_ENTRIES`. -/
def maxDedupEntries : Nat := 1024

/-- `MAX_RULES`. -/
def maxRules : Nat := 64

/-- `MAX_PATTERNS_PER_RULE`. -/
def maxPatternsPerRule : Nat := 16

/-- `MappedSkill`; `data` is the address of the mapping, `none` for `NULL`. -/
structure MappedSkill where
  id : Field 127
  data : Option Nat
  size : UInt64

/-- `Rule`. -/
structure Rule where
  patterns : Table (Field 127) maxPatternsPerRule
  skillIndices : Table Nat 3
  priority : Int
  isBash : Bool

/-- `DedupEntry`, without the time stamp, which nothing reads. -/
structure DedupEntry where
  sessionId : Field 63
  skillId : Field 127
  deriving DecidableEq

/-- The zeroed slots of the global arrays. -/
def MappedSkill.zero : MappedSkill := ⟨Field.zero 127, none, 0⟩

def Rule.zero : Rule := ⟨Table.zero (Field.zero 127), Table.zero 0, 0, false⟩

def DedupEntry.zero : DedupEntry := ⟨Field.zero 63, Field.zero 127⟩

/-- `G`, and the mappings of the process. -/
structure Router where
  skills : Table MappedSkill maxMappedSkills
  fileRules : Table Rule maxRules
  bashRules : Table Rule maxRules
  dedup : Table DedupEntry maxDedupEntries
  totalRequests : Int
  totalMatches : Int
  totalDeduped : Int
  running : Bool
  space : Space

/-- `G` as `main` initialises it. -/
def Router.init : Router where
  skills := Table.zero MappedSkill.zero
  fileRules := Table.zero Rule.zero
  bashRules := Table.zero Rule.zero
  dedup := Table.zero DedupEntry.zero
  totalRequests := 0
  totalMatches := 0
  totalDeduped := 0
  running := true
  space := Space.empty

/-! ## Skill loading -/

/-- An entry of the skills directory, with what the calls on its `SKILL.md` find:
whether `access` succeeds, the file when both `open` and `fstat` succeed, and
whether `mmap` succeeds. -/
structure DirEnt where
  dName : Str
  readable : Bool
  file : Option Mapping
  mmaps : Bool

/-- What `opendir` and `readdir` give. -/
abbrev Dir : Type := Option (List DirEnt)

/-- `G.skills[idx]`. -/
def Router.skill (g : Router) (idx : Nat) : MappedSkill := g.skills.slot MappedSkill.zero idx

/-- `find_skill_index`. -/
def findSkillIndex (skills : Table MappedSkill maxMappedSkills) (skillId : Str) : Option Nat :=
  skills.live.findIdx? fun skill => skill.id.str == skillId

/-- `mmap_skill`. -/
def mmapSkill (g : Router) (entry : DirEnt) : Bool × Router :=
  if room : g.skills.count < maxMappedSkills then
    match entry.file with
    | none => (false, g)
    | some file =>
      if file.size = 0 then (false, g)
      else if entry.mmaps then
        let (data, space) := g.space.mmap file
        let write (skill : MappedSkill) : MappedSkill :=
          { id := skill.id.strncpy entry.dName, data := some data, size := file.size }
        (true, { g with skills := g.skills.grow write room, space := space })
      else (false, g)
  else (false, g)

/-- One round of the loop of `load_all_skills`. -/
def loadEntry (g : Router) (entry : DirEnt) : Router :=
  if entry.dName.first = '.'.toUInt8 ∨ entry.dName.first = '_'.toUInt8 then g
  else if entry.readable then (mmapSkill g entry).2
  else g

/-- `load_all_skills`. -/
def loadAllSkills (g : Router) (dir : Dir) : Router :=
  match dir with
  | none => g
  | some entries => entries.foldl loadEntry g

/-- `unload_all_skills`. -/
def unloadAllSkills (g : Router) : Router :=
  let unmap (space : Space) (skill : MappedSkill) : Space :=
    match skill.data with
    | none => space
    | some addr => space.munmap addr
  { g with
    skills := (g.skills.mapLive fun skill => { skill with data := none }).clear
    space := g.skills.live.foldl unmap g.space }

/-! ## Rule loading -/

/-- `add_rule`. -/
def addRule (skills : Table MappedSkill maxMappedSkills) (rules : Table Rule maxRules)
    (isBash : Bool) (patterns : Str) (priority : Int) (skillIds : List Str) : Table Rule maxRules :=
  if room : rules.count < maxRules then
    let write (r : Rule) : Rule :=
      let tokens := (patterns.truncate 1023).tokens '|'.toUInt8
      -- at most three ids are looked up, so `fill` never runs out of room here
      let found := (skillIds.take 3).filterMap (findSkillIndex skills)
      { patterns := r.patterns.clear.fill (fun token slot => slot.strncpy token) tokens
        skillIndices := r.skillIndices.clear.fill (fun idx _ => idx) found
        priority := priority
        isBash := isBash }
    rules.grow write room
  else rules

/-- The arguments of a call of `add_rule`: patterns, priority and skill ids. -/
structure RuleCall where
  patterns : String
  priority : Int
  skillIds : List String

/-- The `add_rule` calls for file tools: patterns, priority and skill ids. -/
def fileRuleCalls : List RuleCall :=
  [⟨"View.swift|Screen.swift|Page.swift|ContentView", 10,
      ["twostraws--swiftui-pro", "dadederk--ios-accessibility"]⟩,
    ⟨"Tests.swift|Test.swift|Spec.swift", 10,
      ["twostraws--swift-testing-pro", "avdlee--swift-testing-expert"]⟩,
    ⟨"Model.swift|Entity.swift|.xcdatamodeld|Schema.swift|Migration.swift", 10,
      ["twostraws--swiftdata-pro", "avdlee--core-data-expert"]⟩,
    ⟨"Package.swift|Package.resolved", 9, ["avdlee--spm-build-analysis"]⟩,
    ⟨".xcodeproj|.pbxproj|.xcworkspace|.xcscheme", 8, ["avdlee--xcode-project-analyzer"]⟩,
    ⟨"Info.plist|.entitlements|PrivacyInfo.xcprivacy", 9,
      ["truongduy2611--app-store-preflight"]⟩,
    ⟨"Widget.swift|TimelineProvider.swift|TimelineEntry.swift", 9, ["dpearson2699--widgetkit"]⟩,
    ⟨"Intent.swift|AppShortcut.swift", 9, ["dpearson2699--app-intents"]⟩,
    ⟨"HealthKit.swift|HealthStore.swift|HKQuery.swift|HKSample.swift|WorkoutSession.swift", 8,
      ["dpearson2699--healthkit"]⟩,
    ⟨"MapKit.swift|MapView.swift|MKAnnotation.swift|CLLocation.swift", 8,
      ["dpearson2699--mapkit"]⟩,
    ⟨"StoreKit.swift|InAppPurchase.swift|Subscription.swift|Paywall.swift", 8,
      ["dpearson2699--storekit"]⟩,
    ⟨"Notification.swift|Push.swift|UNUser.swift", 8, ["dpearson2699--push-notifications"]⟩,
    ⟨"CoreML.swift|MLModel.swift|VNRequest.swift|Prediction.swift|FoundationModel.swift", 8,
      ["dpearson2699--coreml"]⟩,
    ⟨"Network.swift|API.swift|Client.swift|Endpoint.swift|URLSession.swift|" ++
      "Request.swift|Response.swift", 6,
      ["dpearson2699--ios-networking", "twostraws--swift-concurrency-pro"]⟩,
    ⟨"Auth.swift|Login.swift|SignIn.swift|Credential.swift", 8,
      ["dpearson2699--authentication"]⟩,
    ⟨"Accessibility.swift|A11y.swift|VoiceOver.swift", 9, ["dadederk--ios-accessibility"]⟩,
    ⟨"Manager.swift|Service.swift|Provider.swift|Coordinator.swift|Repository.swift|" ++
      "DataSource.swift|UseCase.swift", 5,
      ["twostraws--swift-concurrency-pro", "efremidze--swift-architecture-skill"]⟩,
    ⟨".strings|.stringsdict|Localizable|.xcstrings", 8, ["dpearson2699--ios-localization"]⟩,
    ⟨"ARView.swift|ARSession.swift|RealityKit.swift|AnchorEntity.swift|RealityView.swift", 8,
      ["dpearson2699--realitykit"]⟩,
    ⟨"ViewController.swift|UIKit.swift|Representable.swift", 7,
      ["dpearson2699--swiftui-uikit-interop"]⟩,
    ⟨"Security.swift|Keychain.swift|Crypto.swift|Biometric.swift", 8,
      ["dpearson2699--ios-security"]⟩,
    ⟨"Glass.swift|LiquidGlass.swift", 9,
      ["dpearson2699--swiftui-liquid-glass", "harryworld--xcode-26"]⟩,
    ⟨".swift", 1, ["martinlasek--swift-coding-guideline"]⟩]

/-- The `add_rule` calls for the bash tool. -/
def bashRuleCalls : List RuleCall :=
  [⟨"xcodebuild", 10, ["getsentry--xcodebuildmcp-cli", "avdlee--xcode-build-orchestrator"]⟩,
    ⟨"swift test", 10, ["twostraws--swift-testing-pro"]⟩,
    ⟨"swift build", 8, ["avdlee--spm-build-analysis"]⟩,
    ⟨"simctl", 9, ["getsentry--xcodebuildmcp-cli"]⟩,
    ⟨"asc ", 10, ["rudrankriyam--asc-cli-usage", "rudrankriyam--asc-workflow"]⟩,
    ⟨"fastlane", 8, ["rudrankriyam--asc-release-flow"]⟩,
    ⟨"swiftlint|swift-format", 7, ["martinlasek--swift-coding-guideline"]⟩,
    ⟨"instruments|xctrace", 9, ["dpearson2699--debugging-instruments"]⟩]

/-- The calls of `add_rule` for one table, in order. -/
def addRules (skills : Table MappedSkill maxMappedSkills) (isBash : Bool) (calls : List RuleCall)
    (rules : Table Rule maxRules) : Table Rule maxRules :=
  calls.foldl (fun rules call =>
    addRule skills rules isBash (Str.lit call.patterns) call.priority (call.skillIds.map Str.lit))
    rules

/-- `load_rules`. -/
def loadRules (g : Router) : Router :=
  { g with
    fileRules := addRules g.skills false fileRuleCalls g.fileRules
    bashRules := addRules g.skills true bashRuleCalls g.bashRules }

/-- The state in which `main` starts to listen. -/
def boot (dir : Dir) : Router := loadRules (loadAllSkills Router.init dir)

/-- What the `RELOAD` command does. -/
def reload (g : Router) (dir : Dir) : Router :=
  let g := loadAllSkills (unloadAllSkills g) dir
  loadRules { g with fileRules := g.fileRules.clear, bashRules := g.bashRules.clear }

end Sockd.Reference
