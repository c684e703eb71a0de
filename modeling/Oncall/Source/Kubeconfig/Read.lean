import Oncall.Source.Kubeconfig.Contents
import Oncall.Yaml.Record
import Oncall.Yaml.Value.OfNode

/-!
Reading kubeconfig files. Fields that have no bearing on a connection are checked for their types
only.
-/

namespace Oncall.Kubeconfig

open Yaml (Members Value)
open Yaml.Value (text? truth? listOf? dictionaryOf? members?)

/-- Fields that may hold text. -/
def hasTexts (members : Members) (names : List String) : Bool :=
  names.all fun name => (members.optional name text?).isSome

/-- Fields that may hold truth values. -/
def hasTruths (members : Members) (names : List String) : Bool :=
  names.all fun name => (members.optional name truth?).isSome

/-- An extension has a name and any data. -/
def extension? (v : Value) : Option Unit := do
  let members ← v.members?
  let _ ← members.required "name" text?
  let data ← members.required "extension" some
  if data.isData Yaml.maxLevels then some () else none

def hasExtensions (members : Members) : Bool :=
  (members.optional "extensions" (listOf? extension?)).isSome

def preferences? (v : Value) : Option Unit := do
  let members ← v.members?
  if hasTruths members ["colors"] && hasExtensions members then some () else none

/-- Content in place under a field, or a file under another one. -/
def blob? (members : Members) (name : String) : Option Blob := do
  some ⟨← members.optional (name ++ "-data") text?, ← members.optional name text?⟩

def cluster? (v : Value) : Option Cluster := do
  let members ← v.members?
  if hasTruths members ["insecure-skip-tls-verify", "disable-compression"] &&
      hasExtensions members then
    some {
      server := ← members.optional "server" text?
      proxyUrl := ← members.optional "proxy-url" text?
      authority := ← blob? members "certificate-authority"
      tlsServerName := ← members.optional "tls-server-name" text? }
  else none

def context? (v : Value) : Option Context := do
  let members ← v.members?
  if hasTexts members ["namespace"] && hasExtensions members then
    some ⟨← members.required "cluster" text?, ← members.optional "user" text?⟩
  else none

def provider? (v : Value) : Option Provider := do
  let members ← v.members?
  some ⟨← members.required "name" text?, ← members.orElse "config" [] (dictionaryOf? text?)⟩

/-- When a plugin may ask its user. -/
def interactiveModes : List String := ["Never", "IfAvailable", "Always"]

def plugin? (v : Value) : Option Unit := do
  let members ← v.members?
  let _ ← members.optional "args" (listOf? text?)
  let _ ← members.optional "env" (listOf? (dictionaryOf? text?))
  let _ ← members.optional "interactiveMode" (Value.oneOf? interactiveModes)
  let _ ← members.orElse "provideClusterInfo" false truth?
  if hasTexts members ["apiVersion", "command"] then some () else none

def user? (v : Value) : Option User := do
  let members ← v.members?
  let text (name : String) := members.optional name text?
  some {
    username := ← text "username"
    password := ← text "password"
    token := ← text "token"
    tokenFile := ← text "tokenFile"
    certificate := ← blob? members "client-certificate"
    key := ← blob? members "client-key"
    actsAs := ← text "as"
    actsAsGroups := ← members.optional "as-groups" (listOf? text?)
    provider := ← members.optional "auth-provider" provider?
    hasPlugin := (← members.optional "exec" plugin?).isSome }

/-- An entry with a name and its content under a field. -/
def named? {α : Type} (field : String) (read? : Value → Option α) (v : Value) :
    Option (String × Option α) := do
  let members ← v.members?
  some (← members.required "name" text?, ← members.optional field read?)

/-- The entries of a section; a missing one is empty. -/
def section? {α : Type} (members : Members) (name field : String) (read? : Value → Option α) :
    Option (Section α) := do
  some ((← members.optional name (listOf? (named? field read?))).getD [])

def Contents.ofValue? (v : Value) : Option Contents := do
  let members ← v.members?
  let _ ← members.optional "preferences" preferences?
  if hasExtensions members then
    some {
      kind := ← members.optional "kind" text?
      apiVersion := ← members.optional "apiVersion" text?
      currentContext := ← members.optional "current-context" text?
      contexts := ← section? members "contexts" "context" context?
      clusters := ← section? members "clusters" "cluster" cluster?
      users := ← section? members "users" "user" user? }
  else none

/-- The configuration that a text states in all of its documents. -/
def Contents.ofText? (cs : List Char) : Option Contents := do
  ofDocuments? (← (← Value.ofText? cs).mapM ofValue?)

end Oncall.Kubeconfig
