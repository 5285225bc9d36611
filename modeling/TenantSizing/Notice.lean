import TenantSizing.Failure
import TenantSizing.Merge.Filtered
import TenantSizing.Tree.Display

namespace TenantSizing

inductive Level where
  | info
  | warning
  | error
  deriving DecidableEq, Repr

def Level.word : Level → String
  | .info => "INFO"
  | .warning => "WARNING"
  | .error => "ERROR"

inductive Notice where
  /-- A merge met two kinds of tree at one place. -/
  | clash (clash : Clash)
  -- reading a tenant
  | servicesNotAList (tenant : String)
  | serviceUnnamed (place : String)
  | serviceRepeated (place name : String)
  | specNotAMap (place : String)
  | kindNotAMap (place kind : String)
  | resourcesNotAList (place : String)
  | resourceNotAMap (place : String) (position : Nat)
  | unknownSize (tenant size : String)
  -- reconciling
  | applying (count : Nat) (config : String)
  | shrinking (config : String)
  | configNotAMap (typeWord : String)
  | kindSkipped (operand kind : String)
  | tenantResourceSkipped (raw : Identity) (owner : String)
  | configResourceSkipped (raw : Identity) (config : String)
  | wouldUpdate (config : String) (unchanged : Bool)
  | updated (config : String)
  -- calling the API
  | getFailed (config : String) (fault : ApiFault)
  | replaceFailed (config : String) (fault : ApiFault)
  | listFailed (fault : ApiFault)
  | patchFailed (tenant : String) (fault : ApiFault)
  | streamFailed (fault : ApiFault)
  -- controlling
  | retrying (task message : String) (attempt : Nat) (limit : Nat)
  | givingUp (task : String) (attempts : Nat)
  | tenantRemoved (tenant : String)
  | shrinkFailed (tenant message : String)
  | tenantSeen (event tenant : String)
  | tenantFailed (tenant message : String)
  | configChanged (tenant : String)
  | resyncFailed (message : String)
  | watchStarted
  | watchFailed (fault : ApiFault)
  | watchBroken
  | resyncStarted (seconds : Nat)
  | rule
  | controllerStarting
  | servesNamespace (space : String)
  | watches (space : String)
  | dryRun (value : Bool)
  | running
  | interrupted
  | stopping
  -- starting up
  | badRulesFile (message : String)
  | inClusterLoaded
  | kubeconfigLoaded
  | configNotLoaded (message : String)
  | controllerStopped
  | controllerFailed (message : String)
  deriving DecidableEq, Repr

namespace Notice

def level : Notice → Level
  | .clash _ | .servicesNotAList _ | .serviceUnnamed _ | .serviceRepeated _ _ | .specNotAMap _
  | .kindNotAMap _ _ | .resourcesNotAList _ | .resourceNotAMap _ _ | .unknownSize _ _
  | .configNotAMap _ | .kindSkipped _ _ | .tenantResourceSkipped _ _ | .configResourceSkipped _ _
  | .retrying _ _ _ _ => .warning
  | .getFailed _ _ | .replaceFailed _ _ | .listFailed _ | .patchFailed _ _ | .streamFailed _
  | .givingUp _ _ | .shrinkFailed _ _ | .tenantFailed _ _ | .resyncFailed _ | .watchFailed _
  | .watchBroken | .badRulesFile _ | .configNotLoaded _ | .controllerFailed _ => .error
  | _ => .info

def text : Notice → String
  | .clash c =>
    "Skipping field " ++ c.path.shown ++ ": expected " ++ c.expected.word ++
      ", got " ++ c.found.word
  | .servicesNotAList tenant => "CommonService " ++ tenant ++ ": spec.services is not a list"
  | .serviceUnnamed place => "Skipping " ++ place ++ ": service has no name"
  | .serviceRepeated place name => "Skipping " ++ place ++ ": duplicate service " ++ name
  | .specNotAMap place => "Skipping " ++ place ++ ".spec: not a map"
  | .kindNotAMap place kind => "Skipping " ++ place ++ ".spec." ++ kind ++ ": not a map"
  | .resourcesNotAList place => "Skipping " ++ place ++ ".resources: not a list"
  | .resourceNotAMap place position =>
    "Skipping " ++ place ++ ".resources[" ++ toString position ++ "]: not a map"
  | .unknownSize tenant size => "CommonService " ++ tenant ++ ": unknown size " ++ size
  | .applying count config =>
    "Applying " ++ toString count ++ " service config(s) to OperandConfig " ++ config
  | .shrinking config => "Shrinking OperandConfig " ++ config ++ " to the remaining tenants"
  | .configNotAMap typeWord => "Skipping service config: not a map (" ++ typeWord ++ ")"
  | .kindSkipped operand kind => "Skipping " ++ operand ++ ".spec." ++ kind ++ ": not a map"
  | .tenantResourceSkipped raw owner =>
    "Skipping merging resource " ++ (Failure.incompleteIdentity raw).message ++ " from " ++ owner
  | .configResourceSkipped raw config =>
    "Skipping merging resource " ++ (Failure.incompleteIdentity raw).message ++
      " in OperandConfig " ++ config
  | .wouldUpdate config unchanged =>
    "[DRY-RUN] Would update OperandConfig " ++ config ++
      " (unchanged=" ++ shownBool unchanged ++ ")"
  | .updated config => "Updated OperandConfig " ++ config
  | .getFailed config fault => "Error getting OperandConfig " ++ config ++ ": " ++ fault.summary
  | .replaceFailed config fault =>
    "Error updating OperandConfig " ++ config ++ ": " ++ fault.summary
  | .listFailed fault => "Error listing CommonServices: " ++ fault.summary
  | .patchFailed tenant fault =>
    "Error updating CommonService status " ++ tenant ++ ": " ++ fault.summary
  | .streamFailed fault => "Watch error: " ++ fault.message
  | .retrying task message attempt limit =>
    task ++ ": " ++ message ++ ", retrying (" ++ toString attempt ++ "/" ++ toString limit ++ ")"
  | .givingUp task attempts => task ++ ": giving up after " ++ toString attempts ++ " conflicts"
  | .tenantRemoved tenant => "CommonService " ++ tenant ++ " removed, shrinking OperandConfig"
  | .shrinkFailed tenant message =>
    "Failed to shrink OperandConfig after deleting " ++ tenant ++ ": " ++ message
  | .tenantSeen event tenant => "CommonService " ++ event ++ ": " ++ tenant
  | .tenantFailed tenant message =>
    "Failed to reconcile CommonService " ++ tenant ++ ": " ++ message
  | .configChanged tenant => "OperandConfig changed for CommonService " ++ tenant
  | .resyncFailed message => "Resync failed: " ++ message
  | .watchStarted => "Starting CommonService watcher..."
  | .watchFailed fault => "CommonService watch error: " ++ fault.message
  | .watchBroken => "Unexpected error in CommonService watcher"
  | .resyncStarted seconds => "Starting periodic resync (interval: " ++ toString seconds ++ "s)"
  | .rule => String.ofList (List.replicate 60 '=')
  | .controllerStarting => "Starting OperandConfig Controller"
  | .servesNamespace space => "Services namespace: " ++ space
  | .watches space => "Watching: " ++ (if space = "" then "all namespaces" else space)
  | .dryRun value => "Dry run: " ++ shownBool value
  | .running => "Controller is running. Press Ctrl+C to stop."
  | .interrupted => "Shutdown requested..."
  | .stopping => "Stopping controller..."
  | .badRulesFile message => "Invalid rules file: " ++ message
  | .inClusterLoaded => "Loaded in-cluster configuration"
  | .kubeconfigLoaded => "Loaded kubeconfig from default location"
  | .configNotLoaded message => "Failed to load Kubernetes config: " ++ message
  | .controllerStopped => "Controller stopped"
  | .controllerFailed message => "Controller error: " ++ message

end Notice

end TenantSizing
