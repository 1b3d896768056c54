import ServiceMap.Main
import ServiceMap.Proofs.Facts.MaskedReading
import ServiceMap.Proofs.Facts.SameCode
import ServiceMap.Proofs.Source.CommentLexer
import ServiceMap.Source.FromEnd
import ServiceMap.Web.Api
import ServiceMap.Proofs.Link.Scan
import ServiceMap.Proofs.Link.Pool
import ServiceMap.Proofs.Tree.Descent
import ServiceMap.Proofs.Tree.Walk
import ServiceMap.Proofs.Tree.Discovered
import ServiceMap.Proofs.Service.Context
import ServiceMap.Proofs.Analysis.Reading
import ServiceMap.Proofs.Analysis.Accounting
import ServiceMap.Proofs.Service.ContextEdges
import ServiceMap.Proofs.Facts.PrintedClass
import ServiceMap.Proofs.Facts.Readable
import ServiceMap.Proofs.Report.RoundTrip
import ServiceMap.Proofs.Analysis.KnownFiles
import ServiceMap.Proofs.Web.FrontEnds
import ServiceMap.Proofs.Declaration.KeptCSharp
import ServiceMap.Proofs.Declaration.KeptJava
import ServiceMap.Proofs.Facts.StringContents
import ServiceMap.Proofs.Link.AddedFiles
import ServiceMap.Proofs.Tree.ListingOrder
import ServiceMap.Proofs.Endpoint.Owner
import ServiceMap.Proofs.Analysis.Moved
import ServiceMap.Proofs.Source.Groups
import ServiceMap.Proofs.Link.JavaHeaders
import ServiceMap.Proofs.Link.CSharpHeaders
import ServiceMap.Proofs.Facts.MethodLists
import ServiceMap.Proofs.Source.Attributes
import ServiceMap.Proofs.Source.Annotations
import ServiceMap.Proofs.Declaration.GoParameters
import ServiceMap.Proofs.Endpoint.RouteGroups
import ServiceMap.Proofs.Declaration.StructBodies
import ServiceMap.Proofs.Link.Embeddings
import ServiceMap.Proofs.Endpoint.GoBodies
import ServiceMap.Proofs.Link.Declarers
import ServiceMap.Proofs.Facts.LineComments
import ServiceMap.Proofs.Source.DocComments
import ServiceMap.Proofs.Endpoint.JoinedPaths
import ServiceMap.Proofs.Text.Capitals
import ServiceMap.Proofs.Service.NameConvention
import ServiceMap.Proofs.Endpoint.Placeholders
import ServiceMap.Proofs.Endpoint.Responses
import ServiceMap.Proofs.Endpoint.Bindings
import ServiceMap.Proofs.Endpoint.Verbs
import ServiceMap.Proofs.Declaration.AttributedParameters
import ServiceMap.Proofs.Report.Nodes
import ServiceMap.Proofs.Report.Owners
import ServiceMap.Proofs.Settings.Accepted
import ServiceMap.Proofs.Link.Confined
import ServiceMap.Proofs.Source.Rejoined
import ServiceMap.Proofs.Source.TopLevel
