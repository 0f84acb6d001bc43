import EgressControl.CommandLine.Parser
import EgressControl.Config
import EgressControl.Override

/-! # From options to a configuration

What is not set has the value of the default configuration; suffixes that the user names replace
the usual ones. -/

namespace EgressControl.CommandLine

/-- The object file unless another one is named. -/
def defaultArtifact (a : Architecture := .other) : String := Config.artifactFor a

/-- The configuration that the options ask for on a host. -/
def Options.toConfig (o : Options) (a : Architecture := .other) : Except ConfigError Config :=
  match Override.parseAll (o.valuesOf .attach) with
  | .error e => .error e
  | .ok overrides =>
    let suffixes := o.valuesOf .allowSuffix
    .ok
      { mode := (o.value? .mode).getD ""
        artifact := (o.value? .ebpfObject).getD (defaultArtifact a)
        overrides := overrides
        seed :=
          { hosts := (o.value? .allowedHosts).getD ""
            addresses := (o.value? .allowedIps).getD ""
            nameservers := some ((o.value? .resolvConf).getD SeedSources.systemNameservers) }
        suffixes := if suffixes.isEmpty then Config.defaultSuffixes else suffixes
        reportFile := o.value? .reportFile
        summaryFile := o.value? .output
        bufferBytes := Config.defaultBufferBytes }

end EgressControl.CommandLine
