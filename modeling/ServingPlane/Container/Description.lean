import ServingPlane.Json.Codec

/-! # What the container daemon describes

    The documents in which the daemon describes images, containers and the
    progress of a fetch.  Little of them is used, but a document counts
    only if every known member has its form: a member may be absent or
    null, and unknown ones are passed over. -/

namespace ServingPlane.ContainerDaemon

/-! ## Members that are only checked -/

/-- A member that is only checked. -/
def checked {σ α : Type} (name : String) (c : Codec α) : Field σ :=
  .positional name c (fun _ => none) (fun _ s => s)

/-- Members of one form. -/
def checkedEach {σ α : Type} (c : Codec α) (names : List String) : List (Field σ) :=
  names.map (checked · c)

/-- Texts. -/
def texts {σ : Type} : List String → List (Field σ) := checkedEach .string

/-- Lists of texts. -/
def textLists {σ : Type} : List String → List (Field σ) := checkedEach (.list .string)

/-- Truth values. -/
def flags {σ : Type} : List String → List (Field σ) := checkedEach .bool

/-- Whole numbers. -/
def numbers {σ : Type} : List String → List (Field σ) := checkedEach .int64

/-- A record of which nothing is kept. -/
def part (name : String) (fields : List (Field Unit)) : Codec Unit :=
  RecordShape.codec ⟨name, (), fields⟩

/-- One of several names; the empty one is always among them. -/
def oneOf (names : List String) : Codec String := .choice (("" :: names).map fun s => (s, s)) id

/-- Names and their values. -/
def labels : Codec (Dict String String) := .dict .string

/-- A set of names: each leads to an empty map. -/
def nameSet : Codec (Dict String Unit) :=
  .dict ⟨fun _ => .object [], fun
    | .object [] ending => Codec.settleMembers ending
    | .object _ _ => .error (.wrongType .map "an empty map")
    | d => .error (d.mismatch "a map")⟩

/-- A list that must be given, if only as null. -/
def givenList {σ α : Type} (name : String) (c : Codec α) : Field σ :=
  { (checked name (.list c) : Field σ) with presence := .required }

/-! ## Fetches -/

/-- The details of an error during a fetch. -/
def errorDetail : Codec Unit := part "ErrorDetail" (numbers ["code"] ++ texts ["message"])

/-- How far a fetch is. -/
def progressDetail : Codec Unit := part "ProgressDetail" (numbers ["current", "total"])

/-- One report of a fetch: its error, if it has one. -/
def progressShape : RecordShape (Option String) where
  name := "CreateImageInfo"
  initial := none
  fields := texts ["id"] ++ [.positional "error" .string id (fun v _ => v),
    checked "errorDetail" errorDetail] ++ texts ["status", "progress"]
    ++ [checked "progressDetail" progressDetail]

/-! ## Configurations -/

/-- How the health of a container is tested. -/
def healthTest : Codec Unit :=
  part "HealthConfig" (textLists ["Test"]
    ++ numbers ["Interval", "Timeout", "Retries", "StartPeriod", "StartInterval"])

/-- The configuration of a container, or the one an image proposes. -/
def configuration : Codec Unit :=
  part "ContainerConfig" (texts ["Hostname", "Domainname", "User"]
    ++ flags ["AttachStdin", "AttachStdout", "AttachStderr"] ++ [checked "ExposedPorts" nameSet]
    ++ flags ["Tty", "OpenStdin", "StdinOnce"] ++ textLists ["Env", "Cmd"]
    ++ [checked "Healthcheck" healthTest] ++ flags ["ArgsEscaped"] ++ texts ["Image"]
    ++ [checked "Volumes" nameSet] ++ texts ["WorkingDir"] ++ textLists ["Entrypoint"]
    ++ flags ["NetworkDisabled"] ++ texts ["MacAddress"] ++ textLists ["OnBuild"]
    ++ [checked "Labels" labels] ++ texts ["StopSignal"] ++ numbers ["StopTimeout"]
    ++ textLists ["Shell"])

/-- Where files are kept: a driver and its data, both of which must be given. -/
def fileDriver : Codec Unit :=
  part "DriverData" [.needed "Name" .string (fun _ => "") (fun _ s => s),
    { (checked "Data" labels : Field Unit) with presence := .required }]

/-! ## Images -/

/-- The layers of an image; their kind must be given. -/
def imageLayers : Codec Unit :=
  part "ImageInspectRootFs"
    (.needed "Type" .string (fun _ => "") (fun _ s => s) :: textLists ["Layers"])

/-- A description of an image, of which only the form counts. -/
def imageDescription : Codec Unit :=
  part "ImageInspect" (texts ["Id"] ++ textLists ["RepoTags", "RepoDigests"]
    ++ texts ["Parent", "Comment", "Created", "DockerVersion", "Author"]
    ++ [checked "Config" configuration] ++ texts ["Architecture", "Variant", "Os", "OsVersion"]
    ++ numbers ["Size", "VirtualSize"] ++ [checked "GraphDriver" fileDriver,
      checked "RootFS" imageLayers,
      checked "Metadata" (part "ImageInspectMetadata" (texts ["LastTagTime"]))])

/-! ## The machine around a container -/

/-- The kinds of a mount. -/
def mountKind : Codec String := oneOf ["bind", "volume", "tmpfs", "npipe", "cluster"]

/-- A mount as it was asked for. -/
def mount : Codec Unit :=
  let bind := part "MountBindOptions"
    (checked "Propagation" (oneOf ["private", "rprivate", "shared", "rshared", "slave", "rslave"])
      :: flags ["NonRecursive", "CreateMountpoint", "ReadOnlyNonRecursive", "ReadOnlyForceRecursive"])
  let driver := part "MountVolumeOptionsDriverConfig" (texts ["Name"] ++ [checked "Options" labels])
  let volume := part "MountVolumeOptions"
    (flags ["NoCopy"] ++ [checked "Labels" labels, checked "DriverConfig" driver]
      ++ texts ["Subpath"])
  let memory := part "MountTmpfsOptions"
    (numbers ["SizeBytes", "Mode"] ++ [checked "Options" (.list (.list .string))])
  part "Mount" (texts ["Target", "Source"] ++ [checked "Type" mountKind] ++ flags ["ReadOnly"]
    ++ texts ["Consistency"] ++ [checked "BindOptions" bind, checked "VolumeOptions" volume,
      checked "TmpfsOptions" memory])

/-- A mount as it is. -/
def mountPoint : Codec Unit :=
  part "MountPoint" (checked "Type" mountKind
    :: texts ["Name", "Source", "Destination", "Driver", "Mode"] ++ flags ["RW"]
    ++ texts ["Propagation"])

/-- Where ports lead. -/
def portMap : Codec (Dict String (Option (List Unit))) :=
  .dict (.option (.list (part "PortBinding" (texts ["HostIp", "HostPort"]))))

/-- Limits on what a container may use. -/
def resourceFields : List (Field Unit) :=
  let throttles := checkedEach
    (.list (part "ThrottleDevice" (texts ["Path"] ++ numbers ["Rate"])))
  let weight := part "ResourcesBlkioWeightDevice" (texts ["Path"] ++ [checked "Weight" .count])
  let device := part "DeviceMapping" (texts ["PathOnHost", "PathInContainer", "CgroupPermissions"])
  let request := part "DeviceRequest" (texts ["Driver"] ++ numbers ["Count"]
    ++ textLists ["DeviceIDs"] ++ [checked "Capabilities" (.list (.list .string)),
      checked "Options" labels])
  let limit := part "ResourcesUlimits" (texts ["Name"] ++ numbers ["Soft", "Hard"])
  numbers ["CpuShares", "Memory"] ++ texts ["CgroupParent"] ++ [checked "BlkioWeight" .uint16,
    checked "BlkioWeightDevice" (.list weight)]
    ++ throttles ["BlkioDeviceReadBps", "BlkioDeviceWriteBps", "BlkioDeviceReadIOps",
      "BlkioDeviceWriteIOps"]
    ++ numbers ["CpuPeriod", "CpuQuota", "CpuRealtimePeriod", "CpuRealtimeRuntime"]
    ++ texts ["CpusetCpus", "CpusetMems"] ++ [checked "Devices" (.list device)]
    ++ textLists ["DeviceCgroupRules"] ++ [checked "DeviceRequests" (.list request)]
    ++ numbers ["KernelMemoryTCP", "MemoryReservation", "MemorySwap", "MemorySwappiness",
      "NanoCpus"]
    ++ flags ["OomKillDisable", "Init"] ++ numbers ["PidsLimit"]
    ++ [checked "Ulimits" (.list limit)]
    ++ numbers ["CpuCount", "CpuPercent", "IOMaximumIOps", "IOMaximumBandwidth"]

/-- What the machine provides for a container. -/
def hostConfiguration : Codec Unit :=
  let log := part "HostConfigLogConfig" (texts ["Type"] ++ [checked "Config" labels])
  let restart := part "RestartPolicy"
    (checked "Name" (oneOf ["no", "always", "unless-stopped", "on-failure"])
      :: numbers ["MaximumRetryCount"])
  part "HostConfig" (resourceFields ++ textLists ["Binds"] ++ texts ["ContainerIDFile"]
    ++ [checked "LogConfig" log] ++ texts ["NetworkMode"] ++ [checked "PortBindings" portMap,
      checked "RestartPolicy" restart]
    ++ flags ["AutoRemove"] ++ texts ["VolumeDriver"] ++ textLists ["VolumesFrom"]
    ++ [checked "Mounts" (.list mount), checked "ConsoleSize" (.list .int32),
      checked "Annotations" labels]
    ++ textLists ["CapAdd", "CapDrop"] ++ [checked "CgroupnsMode" (oneOf ["private", "host"])]
    ++ textLists ["Dns", "DnsOptions", "DnsSearch", "ExtraHosts", "GroupAdd"]
    ++ texts ["IpcMode", "Cgroup"] ++ textLists ["Links"] ++ numbers ["OomScoreAdj"]
    ++ texts ["PidMode"] ++ flags ["Privileged", "PublishAllPorts", "ReadonlyRootfs"]
    ++ textLists ["SecurityOpt"] ++ checkedEach labels ["StorageOpt", "Tmpfs"]
    ++ texts ["UTSMode", "UsernsMode"] ++ numbers ["ShmSize"] ++ [checked "Sysctls" labels]
    ++ texts ["Runtime"] ++ [checked "Isolation" (oneOf ["default", "process", "hyperv"])]
    ++ textLists ["MaskedPaths", "ReadonlyPaths"])

/-- A container in a network. -/
def networkEndpoint : Codec Unit :=
  let addresses := part "EndpointIpamConfig"
    (texts ["IPv4Address", "IPv6Address"] ++ textLists ["LinkLocalIPs"])
  part "EndpointSettings" ([checked "IPAMConfig" addresses] ++ textLists ["Links"]
    ++ texts ["MacAddress"] ++ textLists ["Aliases"] ++ [checked "DriverOpts" labels]
    ++ texts ["NetworkID", "EndpointID", "Gateway", "IPAddress"] ++ numbers ["IPPrefixLen"]
    ++ texts ["IPv6Gateway", "GlobalIPv6Address"] ++ numbers ["GlobalIPv6PrefixLen"]
    ++ textLists ["DNSNames"])

/-- The networks of a container. -/
def networks : Codec Unit :=
  let addresses := checkedEach
    (.list (part "Address" (texts ["Addr"] ++ numbers ["PrefixLen"])))
  part "NetworkSettings" (texts ["Bridge", "SandboxID"] ++ flags ["HairpinMode"]
    ++ texts ["LinkLocalIPv6Address"] ++ numbers ["LinkLocalIPv6PrefixLen"]
    ++ [checked "Ports" portMap] ++ texts ["SandboxKey"]
    ++ addresses ["SecondaryIPAddresses", "SecondaryIPv6Addresses"]
    ++ texts ["EndpointID", "Gateway", "GlobalIPv6Address"] ++ numbers ["GlobalIPv6PrefixLen"]
    ++ texts ["IPAddress"] ++ numbers ["IPPrefixLen"] ++ texts ["IPv6Gateway", "MacAddress"]
    ++ [checked "Networks" (.dict networkEndpoint)])

/-! ## Containers -/

/-- The states of a container. -/
def stateName : Codec String :=
  oneOf ["created", "running", "paused", "restarting", "removing", "exited", "dead"]

/-- The health of a container. -/
def health : Codec Unit :=
  let result := part "HealthcheckResult"
    (texts ["Start", "End"] ++ numbers ["ExitCode"] ++ texts ["Output"])
  part "Health" (checked "Status" (oneOf ["none", "starting", "healthy", "unhealthy"])
    :: numbers ["FailingStreak"] ++ [checked "Log" (.list result)])

/-- The state of a container. -/
def stateShape : RecordShape (Option String) where
  name := "ContainerState"
  initial := none
  fields := .positional "Status" stateName id (fun v _ => v)
    :: flags ["Running", "Paused", "Restarting", "OOMKilled", "Dead"] ++ numbers ["Pid", "ExitCode"]
    ++ texts ["Error", "StartedAt", "FinishedAt"] ++ [checked "Health" health]

/-- What the daemon knows of a container. -/
structure Inspection where
  id : Option String
  name : Option String
  state : Option (Option String)
  deriving DecidableEq, Repr

/-- The description of a container. -/
def inspectionShape : RecordShape Inspection where
  name := "ContainerInspectResponse"
  initial := ⟨none, none, none⟩
  fields := .positional "Id" .string (·.id) (fun v i => { i with id := v })
    :: texts ["Created", "Path"] ++ textLists ["Args"]
    ++ [.positional "State" stateShape.codec (·.state) (fun v i => { i with state := v })]
    ++ texts ["Image", "ResolvConfPath", "HostnamePath", "HostsPath", "LogPath"]
    ++ [.positional "Name" .string (·.name) (fun v i => { i with name := v })]
    ++ numbers ["RestartCount"]
    ++ texts ["Driver", "Platform", "MountLabel", "ProcessLabel", "AppArmorProfile"]
    ++ textLists ["ExecIDs"] ++ [checked "HostConfig" hostConfiguration,
      checked "GraphDriver" fileDriver]
    ++ numbers ["SizeRw", "SizeRootFs"] ++ [checked "Mounts" (.list mountPoint),
      checked "Config" configuration, checked "NetworkSettings" networks]

/-- The id in the reply to a creation. -/
def createdShape : RecordShape String where
  name := "ContainerCreateResponse"
  initial := ""
  fields := [.needed "Id" .string id (fun v _ => v), givenList "Warnings" .string]

end ServingPlane.ContainerDaemon
