import FrontendAudit.Validation.Scalar

/-!
# Settings of an audit

Which files belong to which kind, how much runs at once and is kept, which linter rules are left
out, and when the gate of an integration run fails. Every setting has a default. Records name
settings in camel case; the names with underscores are understood too.
-/

namespace FrontendAudit

/-- Which of a linter's rules are left out. -/
structure Exclusions where
  enabled : Bool := true
  overrideDefault : Bool := false
  additional : List String := []
  deriving DecidableEq, Repr, Inhabited

/-- The rules that are left out, where a list is built in: none if exclusions are off, only the
additional ones if they override, and otherwise both. -/
def Exclusions.merge (e : Exclusions) (builtIn : List String) : List String :=
  if !e.enabled then []
  else if e.overrideDefault then e.additional
  else builtIn ++ e.additional.filter fun rule => !builtIn.contains rule

/-- When the gate of an integration run fails. -/
structure GateConfig where
  enabled : Bool
  failOnHigh : Bool
  thresholds : List (String × Int)
  deriving DecidableEq, Repr, Inhabited

/-- The numbers of high findings that are allowed unless set otherwise. -/
def defaultThresholds : List (String × Int) :=
  [("security", 0), ("accessibility", 5), ("eslint", 10), ("stylelint", 10), ("performance", 10)]

/-- The gate unless set otherwise. -/
def GateConfig.default : GateConfig := ⟨false, true, defaultThresholds⟩

/-- The settings of an audit. -/
structure Config where
  scripts : List String
  pages : List String
  styles : List String
  assets : List String
  ignoreFile : Bool
  batchSize : Nat
  maxIssues : Nat
  streamIssues : Bool
  exclusions : List (String × Exclusions)
  gate : GateConfig
  components : List String
  deriving DecidableEq, Repr, Inhabited

namespace Config

def defaultScripts : List String :=
  ["**/*.\x7bjs,ts,jsx,tsx\x7d", "!**/node_modules/**", "!**/dist/**", "!**/build/**",
    "!**/coverage/**", "!**/report/**", "!**/*.min.js", "!**/tools/**"]

def defaultPages : List String :=
  ["**/*.\x7bhtml,htm\x7d", "!**/node_modules/**", "!**/dist/**", "!**/build/**",
    "!**/coverage/**", "!**/report/**", "!**/tools/**"]

def defaultStyles : List String :=
  ["**/*.\x7bcss,scss,sass,less\x7d", "!**/node_modules/**", "!**/dist/**", "!**/build/**",
    "!**/coverage/**", "!**/report/**", "!**/reports/**", "!**/tools/**", "!**/*.min.css",
    "!**/*.bundle.css", "!**/vendor/**", "!**/bower_components/**"]

def defaultAssets : List String :=
  ["public/**/*.\x7bpng,jpg,jpeg,bmp,tiff,gif\x7d", "assets/**/*.\x7bpng,jpg,jpeg,bmp,tiff,gif\x7d",
    "static/**/*.\x7bpng,jpg,jpeg,bmp,tiff,gif\x7d",
    "src/assets/**/*.\x7bpng,jpg,jpeg,bmp,tiff,gif\x7d"]

def defaultComponents : List String :=
  ["ImageOnly", "AccessibleImage", "ImageWithAlt", "ResponsiveImage", "OptimizedImage",
    "AccessibleImg", "ImgWithAlt", "AccessibleFigure"]

/-- The settings unless set otherwise. -/
def default : Config where
  scripts := defaultScripts
  pages := defaultPages
  styles := defaultStyles
  assets := defaultAssets
  ignoreFile := true
  batchSize := 5
  maxIssues := 50000
  streamIssues := true
  exclusions := []
  gate := .default
  components := defaultComponents

/-- The rules of a tool that are left out, where a list is built in. -/
def excludedRules (c : Config) (tool : String) (builtIn : List String) : List String :=
  ((Json.lookup? tool c.exclusions).getD {}).merge builtIn

end Config

/-! ## Reading settings -/

open Checked (field text list boolean integer positive mapping record)

/-- Reads exclusions. -/
def Exclusions.check : Json → Checked Exclusions :=
  record fun ms =>
    Exclusions.mk
      <$> field ["enabled"] (some true) boolean ms
      <*> field ["overrideDefault", "override_default"] (some false) boolean ms
      <*> field ["additionalRules", "additional_rules"] (some []) (list text) ms

/-- Reads the settings of the gate. -/
def GateConfig.check : Json → Checked GateConfig :=
  record fun ms =>
    GateConfig.mk
      <$> field ["enabled"] (some false) boolean ms
      <*> field ["failOnHigh", "fail_on_high"] (some true) boolean ms
      <*> field ["thresholds"] (some defaultThresholds) (mapping integer) ms

namespace Config

/-- Reads whether the ignore file counts. -/
def checkIgnoreFile : Json → Checked Bool :=
  record (field ["enabled"] (some true) boolean)

/-- Reads settings. -/
def check : Json → Checked Config :=
  record fun ms =>
    Config.mk
      <$> field ["jsFilePathPattern", "js_patterns"] (some defaultScripts) (list text) ms
      <*> field ["htmlFilePathPattern", "html_patterns"] (some defaultPages) (list text) ms
      <*> field ["scssFilePathPattern", "scss_patterns"] (some defaultStyles) (list text) ms
      <*> field ["assetFilePathPattern", "asset_patterns"] (some defaultAssets) (list text) ms
      <*> field ["ignoreFileConfig", "ignore_file"] (some true) checkIgnoreFile ms
      <*> field ["batchSize", "batch_size"] (some default.batchSize) positive ms
      <*> field ["maxIssues", "max_issues"] (some default.maxIssues) positive ms
      <*> field ["writeIssueStream", "write_issue_stream"] (some true) boolean ms
      <*> field ["excludeRules", "exclude_rules"] (some []) (mapping Exclusions.check) ms
      <*> field ["ci"] (some .default) GateConfig.check ms
      <*> field ["accessibleComponents", "accessible_components"] (some defaultComponents)
        (list text) ms

end Config

end FrontendAudit
