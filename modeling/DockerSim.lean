import DockerSim.Main
import DockerSim.Proofs.Words
import DockerSim.Proofs.Loadable
import DockerSim.Proofs.Persistence
import DockerSim.Workspace.Tree
import DockerSim.Proofs.OneByOne
import DockerSim.Proofs.History
import DockerSim.Proofs.Journal
import DockerSim.Proofs.Stack.Order
import DockerSim.Proofs.Stack.BringUp
import DockerSim.Proofs.Stack.Up
import DockerSim.Proofs.Failures
import DockerSim.Proofs.Stack.CleanFailure
import DockerSim.Proofs.Stack.Again
import DockerSim.Proofs.Stack.Down
import DockerSim.Proofs.Stack.Report
import DockerSim.Proofs.Stack.Entries
import DockerSim.Proofs.StackFlags
import DockerSim.Proofs.Times
import DockerSim.Proofs.Yaml.RoundTrip
import DockerSim.Proofs.Indices.Commands
import DockerSim.Proofs.FlagForms
import DockerSim.Proofs.Launch
import DockerSim.Proofs.FlagCut
import DockerSim.Proofs.Yaml.FaultLines
import DockerSim.Proofs.Yaml.Comments
import DockerSim.Proofs.Yaml.TextBlocks
import DockerSim.Proofs.UnpinnedImages
import DockerSim.Proofs.StoredImages
import DockerSim.Proofs.Stack.Restart
import DockerSim.Proofs.DrawnNames
import DockerSim.Proofs.EditDistance
import DockerSim.Proofs.CanonicalPaths
import DockerSim.Proofs.KeyLines
import DockerSim.Proofs.ListedPaths
import DockerSim.Proofs.DistinctIds
